import GrowServer.Utils.BinaryIO

/-!
# A sequence of fields (Utils/BinaryReader.hpp, Utils/BinaryWriter.hpp)

Every format of the server is a sequence of fields, each written by one `Write` and read by
the `Read` of the same kind. Neither side checks anything: whether the fields survive is a
matter of the allocation and of the length prefixes of the strings.
-/

namespace GrowServer
open LittleEndian ByteStream BinaryReader BinaryWriter

inductive BinaryField where
  | uint8 (val : UInt8)
  | uint16 (val : UInt16)
  | uint32 (val : UInt32)
  | int32 (val : Int32)
  | vec2 (val : CLVec2 UInt32)
  | vec3 (val : CLVec3 UInt32)
  | stringU16 (val : Bytes)
  | stringU32 (val : Bytes)
  deriving DecidableEq

namespace BinaryField

def write : BinaryField → Writer Unit
  | uint8 val => BinaryWriter.write val
  | uint16 val => BinaryWriter.write val
  | uint32 val => BinaryWriter.write val
  | int32 val => BinaryWriter.write val
  | vec2 val => BinaryWriter.write val
  | vec3 val => BinaryWriter.write val
  | stringU16 val => writeString val
  | stringU32 val => writeString val 4

/-- Reads a field of the same kind. -/
def readLike : BinaryField → Reader BinaryField
  | uint8 _ => return uint8 (← read UInt8)
  | uint16 _ => return uint16 (← read UInt16)
  | uint32 _ => return uint32 (← read UInt32)
  | int32 _ => return int32 (← read Int32)
  | vec2 _ => return vec2 (← read (CLVec2 UInt32))
  | vec3 _ => return vec3 (← read (CLVec3 UInt32))
  | stringU16 _ => return stringU16 (← readStringU16)
  | stringU32 _ => return stringU32 (← readStringU32)

def writeAll : List BinaryField → Writer Unit
  | [] => pure ()
  | field :: fields => do
    field.write
    writeAll fields

def readLikeAll : List BinaryField → Reader (List BinaryField)
  | [] => return []
  | field :: fields => do
    let val ← field.readLike
    return val :: (← readLikeAll fields)

def encoding : BinaryField → Bytes
  | uint8 val => Pod.toBytes val
  | uint16 val => Pod.toBytes val
  | uint32 val => Pod.toBytes val
  | int32 val => Pod.toBytes val
  | vec2 val => Pod.toBytes val
  | vec3 val => Pod.toBytes val
  | stringU16 val => counted 2 val
  | stringU32 val => counted 4 val

/-- A string is not longer than its prefix can say. -/
def Fits : BinaryField → Prop
  | stringU16 val => val.length < 2 ^ 16
  | stringU32 val => val.length < 2 ^ 32
  | _ => True

instance : DecidablePred Fits
  | stringU16 val => inferInstanceAs (Decidable (val.length < 2 ^ 16))
  | stringU32 val => inferInstanceAs (Decidable (val.length < 2 ^ 32))
  | uint8 _ | uint16 _ | uint32 _ | int32 _ | vec2 _ | vec3 _ => inferInstanceAs (Decidable True)

theorem writes_write (field : BinaryField) : Writes field.write field.encoding := by
  cases field with
  | stringU16 val => exact writes_writeString val 2
  | stringU32 val => exact writes_writeString val 4
  | _ => exact writes_writePod _

theorem takes_write (field : BinaryField) : Takes field.write field.encoding.length := by
  have hcounted (n : ℕ) (val : Bytes) : Takes (writeString val n) (counted n val).length := by
    rw [counted, List.length_append]
    exact (takes_putBytes _).bind (takes_putBytes val)
  cases field with
  | stringU16 val => exact hcounted 2 val
  | stringU32 val => exact hcounted 4 val
  | _ => exact takes_putBytes _

theorem reads_readLike {field : BinaryField} (h : field.Fits) :
    Reads field.readLike field.encoding field := by
  cases field with
  | uint8 val => exact (reads_read val).bind_pure uint8
  | uint16 val => exact (reads_read val).bind_pure uint16
  | uint32 val => exact (reads_read val).bind_pure uint32
  | int32 val => exact (reads_read val).bind_pure int32
  | vec2 val => exact (reads_read val).bind_pure vec2
  | vec3 val => exact (reads_read val).bind_pure vec3
  | stringU16 val => exact (reads_readStringU16 val (Nat.le_of_lt_succ h)).bind_pure stringU16
  | stringU32 val => exact (reads_readStringU32 val h).bind_pure stringU32

/-- Whatever is read fits, as it was read by its prefix. -/
theorem parses_readLike (field : BinaryField) : Parses field.readLike fun val _ => val.Fits := by
  cases field with
  | stringU16 val =>
    exact parses_readStringU16_bind fun s hs => Parses.pure (Nat.lt_succ_of_le hs)
  | stringU32 val => exact parses_readCounted_bind UInt32 fun s hs => Parses.pure hs
  | _ => exact parses_read_bind fun _ => Parses.pure trivial

theorem writes_writeAll (fields : List BinaryField) :
    Writes (writeAll fields) (fields.flatMap encoding) := by
  induction fields with
  | nil => exact Writes.nil
  | cons field fields ih => exact field.writes_write.bind ih

theorem takes_writeAll (fields : List BinaryField) :
    Takes (writeAll fields) (fields.flatMap encoding).length := by
  induction fields with
  | nil => exact takes_pure
  | cons field fields ih =>
    rw [List.flatMap_cons, List.length_append]
    exact field.takes_write.bind ih

theorem reads_readLikeAll {fields : List BinaryField} (h : ∀ field ∈ fields, field.Fits) :
    Reads (readLikeAll fields) (fields.flatMap encoding) fields := by
  induction fields with
  | nil => exact Reads.pure []
  | cons field fields ih =>
    obtain ⟨hfield, hfields⟩ := List.forall_mem_cons.mp h
    exact (reads_readLike hfield).bind ((ih hfields).bind_pure (field :: ·))

theorem parses_readLikeAll (fields : List BinaryField) :
    Parses (readLikeAll fields) fun vals _ => ∀ val ∈ vals, val.Fits := by
  induction fields with
  | nil => exact Parses.pure nofun
  | cons field fields ih =>
    refine Parses.bind field.parses_readLike ?_
    intro val _ hval
    refine Parses.bind ih ?_
    intro vals _ hvals
    exact Parses.pure (List.forall_mem_cons.mpr ⟨hval, hvals⟩)

/-- A sequence of fields that is written into an allocation and read from it again comes back
exactly when the allocation is large enough and every string fits its prefix. -/
theorem fields_roundtrip_iff (fields : List BinaryField) (size : ℕ) :
    (∃ buffer br, writeAll fields (BinaryWriter.mk size) = some ((), buffer) ∧
        readLikeAll fields (BinaryReader.mk buffer.buffer) = some (fields, br)) ↔
      (fields.flatMap encoding).length ≤ size ∧ ∀ field ∈ fields, field.Fits := by
  constructor
  · intro h
    obtain ⟨buffer, br, hwrite, hread⟩ := h
    obtain ⟨hroom, -⟩ := takes_writeAll fields _ _ hwrite (Nat.zero_le _)
    obtain ⟨-, -, -, hfits⟩ := parses_readLikeAll fields _ _ _ hread
    refine ⟨?_, hfits⟩
    simpa [Sink.Room, BinaryWriter.mk] using hroom
  · intro h
    obtain ⟨hsize, hfits⟩ := h
    obtain ⟨buffer, hwrite, hwritten, hposition, hlength⟩ :=
      writes_alloc (writes_writeAll fields) size hsize
    have hbuffer : buffer.buffer = fields.flatMap encoding ++ buffer.buffer.drop buffer.position := by
      rw [← hwritten, Sink.written, List.take_append_drop]
    have hread := reads_mk (reads_readLikeAll hfits) (buffer.buffer.drop buffer.position)
    rw [← hbuffer] at hread
    exact ⟨buffer, _, hwrite, hread⟩

end BinaryField

end GrowServer
