import GrowServer.Lib.ByteStream

/-!
# BinaryReader and BinaryWriter (Utils/BinaryReader.hpp, Utils/BinaryWriter.hpp)

Also the vectors of Utils/Math.hpp, which are copied as a whole.

The reader walks over a raw pointer and the writer over a zeroed allocation; both
only keep a position. An access outside the bytes is undefined behaviour in the
source and is the failure of the model.
-/

namespace GrowServer
open LittleEndian ByteStream

abbrev BinaryReader := Cursor

namespace BinaryReader

def mk (data : Bytes) : BinaryReader := ⟨data, 0⟩

def read (α : Type) [Pod α] : Reader α := readPod α

def readStringU16 : Reader Bytes := readCounted UInt16

def readStringU32 : Reader Bytes := readCounted UInt32

-- the position moves without an access, so this never fails
def skip (length : ℕ) : Reader Unit := fun br => some ((), br.advance length)

end BinaryReader

abbrev BinaryWriter := Sink

namespace BinaryWriter

def mk (size : ℕ) : BinaryWriter := ⟨List.replicate size 0, 0⟩

def write {α : Type} [Pod α] (val : α) : Writer Unit := writePod val

/-- `Write(std::string, dataSize)`: the low `dataSize` bytes of the length, then
the characters (BinaryWriter.hpp:19-24). -/
def writeString (val : Bytes) (dataSize : ℕ := 2) : Writer Unit := writeCounted dataSize val

end BinaryWriter

open BinaryReader BinaryWriter

theorem reads_read {α : Type} [Pod α] (a : α) : Reads (read α) (Pod.toBytes a) a := reads_readPod a

theorem reads_readStringU16 (s : Bytes) (h : s.length ≤ 65535) :
    Reads readStringU16 (counted 2 s) s := reads_readCounted UInt16 s (Nat.lt_succ_of_le h)

theorem reads_readStringU32 (s : Bytes) (h : s.length < 2 ^ 32) :
    Reads readStringU32 (counted 4 s) s := reads_readCounted UInt32 s h

theorem reads_skip (bs : Bytes) : Reads (skip bs.length) bs () := fun _ _ _ => rfl

theorem writes_write {α : Type} [Pod α] (a : α) : Writes (write a) (Pod.toBytes a) :=
  writes_writePod a

theorem writes_writeString (s : Bytes) (n : ℕ) : Writes (writeString s n) (counted n s) :=
  writes_writeCounted n s

theorem parses_read_bind {α β : Type} [Pod α] {f : α → Reader β} {P : β → Bytes → Prop}
    (hf : ∀ a, Parses (f a) (fun b cs => P b (Pod.toBytes a ++ cs))) :
    Parses (read α >>= f) P := parses_readPod_bind hf

theorem parses_readStringU16_bind {β : Type} {f : Bytes → Reader β} {P : β → Bytes → Prop}
    (hf : ∀ s, s.length ≤ 65535 → Parses (f s) (fun b cs => P b (counted 2 s ++ cs))) :
    Parses (readStringU16 >>= f) P :=
  parses_readCounted_bind UInt16 fun s hs => hf s (Nat.le_of_lt_succ hs)

theorem stable_skip (length : ℕ) : Stable (skip length) := by
  intro c a c' t h
  obtain ⟨rfl, rfl⟩ := Prod.mk.inj (Option.some.inj h)
  rfl

/-- Where the program fits into the allocation, it succeeds and the bytes before
the final position are exactly what it stores. -/
theorem writes_alloc {w : Writer Unit} {bs : Bytes} (h : Writes w bs) (size : ℕ)
    (hsize : bs.length ≤ size) :
    ∃ buffer, w (BinaryWriter.mk size) = some ((), buffer) ∧ buffer.written = bs ∧
      buffer.position = bs.length ∧ buffer.buffer.length = size := by
  have hroom : (BinaryWriter.mk size).Room bs.length := by
    simp only [Sink.Room, BinaryWriter.mk, List.length_replicate]
    omega
  have hpos : ((BinaryWriter.mk size).put bs).position = bs.length := by
    rw [Sink.put_position]
    exact Nat.zero_add _
  have hlen : ((BinaryWriter.mk size).put bs).buffer.length = size := by
    rw [Sink.put_length _ _ hroom]
    exact List.length_replicate
  refine ⟨_, h _ hroom, ?_, hpos, hlen⟩
  rw [Sink.written_put _ _ hroom]
  rfl

theorem reads_mk {α : Type} {m : Reader α} {bs : Bytes} {a : α} (h : Reads m bs a) (t : Bytes) :
    m (BinaryReader.mk (bs ++ t)) = some (a, ⟨bs ++ t, bs.length⟩) := by
  rw [h (BinaryReader.mk (bs ++ t)) t rfl]
  simp [BinaryReader.mk, Cursor.advance]

theorem parses_mk {α : Type} {m : Reader α} {P : α → Bytes → Prop} (h : Parses m P)
    {data : Bytes} {a : α} {br : BinaryReader} (hm : m (BinaryReader.mk data) = some (a, br)) :
    P a (data.take br.position) ∧ br.position ≤ data.length := by
  obtain ⟨bs, hbr, hrest, hP⟩ := h _ a br hm
  have hdata : data = bs ++ br.rest := hrest
  have hpos : br.position = bs.length := by
    rw [hbr]
    exact Nat.zero_add _
  have htake : data.take br.position = bs := by
    rw [hdata, hpos, List.take_left]
  have hle : br.position ≤ data.length := by
    rw [hdata, hpos, List.length_append]
    omega
  rw [htake]
  exact ⟨hP, hle⟩

/-! ### Math.hpp -/

structure CLVec2 (T : Type) where
  X : T
  Y : T
  deriving DecidableEq, Repr

structure CLVec3 (T : Type) where
  X : T
  Y : T
  Z : T
  deriving DecidableEq, Repr

instance {T : Type} [Pod T] : Pod (CLVec2 T) :=
  Pod.ofEquiv (α := T × T) (fun v => (v.X, v.Y)) (fun p => ⟨p.1, p.2⟩)
    (fun _ => rfl) (fun _ => rfl)

instance {T : Type} [Pod T] : Pod (CLVec3 T) :=
  Pod.ofEquiv (α := T × T × T) (fun v => (v.X, v.Y, v.Z)) (fun p => ⟨p.1, p.2.1, p.2.2⟩)
    (fun _ => rfl) (fun _ => rfl)

end GrowServer
