import GrowServer.Utils.BinaryIO

/-!
# VariantList (Packet/VariantList.cpp, Packet/VariantList.hpp)

A call-function argument list: its size computation, its writer and its reader.
Floats are bit patterns. The stream is one byte for the number of objects, then
for each object its index, its type and its value.
-/

namespace GrowServer
open LittleEndian ByteStream BinaryReader BinaryWriter

/-- The bit pattern of a C++ `float`. -/
abbrev FloatBits := UInt32

inductive VariantType where
  | none
  | float
  | string
  | vector2
  | vector3
  | unsignedInt
  | int
  deriving DecidableEq, Repr

def VariantType.value : VariantType → UInt8
  | none => 0
  | float => 1
  | string => 2
  | vector2 => 3
  | vector3 => 4
  | unsignedInt => 5
  | int => 9

-- `static_cast<VariantType>`: a value without an enumerator takes the default
-- branch of every switch, as `NONE` does
def VariantType.cast (v : UInt8) : VariantType :=
  if v = 1 then float
  else if v = 2 then string
  else if v = 3 then vector2
  else if v = 4 then vector3
  else if v = 5 then unsignedInt
  else if v = 9 then int
  else none

theorem VariantType.cast_value (t : VariantType) : VariantType.cast t.value = t := by
  cases t <;> decide

inductive Variant where
  | float (v : FloatBits)
  | string (s : Bytes)
  | vector2 (v : CLVec2 FloatBits)
  | vector3 (v : CLVec3 FloatBits)
  | unsignedInt (v : UInt32)
  | int (v : Int32)
  deriving DecidableEq, Repr

namespace Variant

def getType : Variant → VariantType
  | float _ => .float
  | string _ => .string
  | vector2 _ => .vector2
  | vector3 _ => .vector3
  | unsignedInt _ => .unsignedInt
  | int _ => .int

def getMemoryUsage : Variant → ℕ
  | string s => 1 + (4 + s.length)
  | vector2 _ => 1 + Pod.size (CLVec2 FloatBits)
  | vector3 _ => 1 + Pod.size (CLVec3 FloatBits)
  | _ => 1 + 4

/-- `Serialize` on a default constructed object, which holds the float 0
(VariantList.cpp:35-48). -/
def serialize : Reader Variant := do
  let objType ← read UInt8
  match VariantType.cast objType with
  | .float => return float (← read FloatBits)
  | .string => return string (← readStringU32)
  | .vector2 => return vector2 (← read (CLVec2 FloatBits))
  | .vector3 => return vector3 (← read (CLVec3 FloatBits))
  | .unsignedInt => return unsignedInt (← read UInt32)
  | .int => return int (← read Int32)
  | .none => return float 0

def pack (var : Variant) : Writer Unit := do
  write var.getType.value
  match var with
  | float v => write v
  | string s => writeString s 4
  | vector2 v => do
    write v.X
    write v.Y
  | vector3 v => do
    write v.X
    write v.Y
    write v.Z
  | unsignedInt v => write v
  | int v => write v

def payload : Variant → Bytes
  | float v => Pod.toBytes v
  | string s => counted 4 s
  | vector2 v => Pod.toBytes v
  | vector3 v => Pod.toBytes v
  | unsignedInt v => Pod.toBytes v
  | int v => Pod.toBytes v

def encoding (var : Variant) : Bytes := Pod.toBytes var.getType.value ++ var.payload

def Fits : Variant → Prop
  | string s => s.length < 2 ^ 32
  | _ => True

theorem encoding_length (var : Variant) : var.encoding.length = var.getMemoryUsage := by
  have htype : (Pod.toBytes var.getType.value).length = 1 := Pod.length_toBytes _
  simp only [encoding, List.length_append, htype]
  cases var with
  | float v => exact congrArg (1 + ·) (Pod.length_toBytes v)
  | string s => simp only [payload, counted, getMemoryUsage, List.length_append, leBytes_length]
  | vector2 v => exact congrArg (1 + ·) (Pod.length_toBytes v)
  | vector3 v => exact congrArg (1 + ·) (Pod.length_toBytes v)
  | unsignedInt v => exact congrArg (1 + ·) (Pod.length_toBytes v)
  | int v => exact congrArg (1 + ·) (Pod.length_toBytes v)

theorem writes_pack (var : Variant) : Writes var.pack var.encoding := by
  refine Writes.bind (writes_write _) ?_
  cases var with
  | float v => exact writes_write v
  | string s => exact writes_writeString s 4
  | vector2 v => exact Writes.bind (writes_write v.X) (writes_write v.Y)
  | vector3 v =>
    exact Writes.bind (writes_write v.X) (Writes.bind (writes_write v.Y) (writes_write v.Z))
  | unsignedInt v => exact writes_write v
  | int v => exact writes_write v

theorem reads_serialize (var : Variant) (h : var.Fits) : Reads serialize var.encoding var := by
  refine Reads.bind (reads_read _) ?_
  rw [VariantType.cast_value]
  cases var with
  | float v => exact (reads_read v).bind_pure float
  | string s => exact (reads_readStringU32 s h).bind_pure string
  | vector2 v => exact (reads_read v).bind_pure vector2
  | vector3 v => exact (reads_read v).bind_pure vector3
  | unsignedInt v => exact (reads_read v).bind_pure unsignedInt
  | int v => exact (reads_read v).bind_pure int

theorem stable_serialize : Stable serialize := by
  refine Stable.bind stable_readPod fun objType => ?_
  cases VariantType.cast objType with
  | none => exact Stable.pure _
  | float => exact Stable.bind stable_readPod fun _ => Stable.pure _
  | string => exact Stable.bind (stable_readCounted UInt32) fun _ => Stable.pure _
  | vector2 => exact Stable.bind stable_readPod fun _ => Stable.pure _
  | vector3 => exact Stable.bind stable_readPod fun _ => Stable.pure _
  | unsignedInt => exact Stable.bind stable_readPod fun _ => Stable.pure _
  | int => exact Stable.bind stable_readPod fun _ => Stable.pure _

/-- Reading an object reads its type at least, and a string of 32-bit length. -/
theorem parses_serialize : Parses serialize (fun var bs => var.Fits ∧ bs ≠ []) := by
  refine parses_read_bind fun objType => ?_
  have hne (cs : Bytes) : Pod.toBytes objType ++ cs ≠ [] := by
    intro h
    have hlength : (Pod.toBytes objType).length = 1 := Pod.length_toBytes _
    rw [(List.append_eq_nil_iff.mp h).1] at hlength
    cases hlength
  cases VariantType.cast objType with
  | none => exact Parses.pure ⟨trivial, hne _⟩
  | float => exact parses_read_bind fun _ => Parses.pure ⟨trivial, hne _⟩
  | string => exact parses_readCounted_bind UInt32 fun s hs => Parses.pure ⟨hs, hne _⟩
  | vector2 => exact parses_read_bind fun _ => Parses.pure ⟨trivial, hne _⟩
  | vector3 => exact parses_read_bind fun _ => Parses.pure ⟨trivial, hne _⟩
  | unsignedInt => exact parses_read_bind fun _ => Parses.pure ⟨trivial, hne _⟩
  | int => exact parses_read_bind fun _ => Parses.pure ⟨trivial, hne _⟩

end Variant

structure VariantList where
  executionDelay : Int32
  netId : Int32
  m_objects : List Variant
  deriving DecidableEq, Repr

namespace VariantList

def getMemoryUsage (l : VariantList) : ℕ :=
  l.m_objects.foldl (fun memoryAlloc obj => memoryAlloc + (obj.getMemoryUsage + 1)) 1

-- the loop of `Pack` from the object at `index` on; index and count are cast to one byte
def packObjects : ℕ → List Variant → Writer Unit
  | _, [] => pure ()
  | index, obj :: objs => do
    write (UInt8.ofNat index)
    obj.pack
    packObjects (index + 1) objs

def packInto (l : VariantList) : Writer Unit := do
  write (UInt8.ofNat l.m_objects.length)
  packObjects 0 l.m_objects

def packBuffer (l : VariantList) : Option BinaryWriter :=
  (l.packInto (BinaryWriter.mk l.getMemoryUsage)).map Prod.snd

def pack (l : VariantList) : Option Bytes :=
  l.packBuffer.map fun buffer => buffer.buffer.take l.getMemoryUsage

-- the loop of the constructor; each object's index byte is skipped
def serializeObjects : ℕ → Reader (List Variant)
  | 0 => return []
  | n + 1 => do
    skip 1
    let vObject ← Variant.serialize
    let objs ← serializeObjects n
    return vObject :: objs

/-- The objects `VariantList(uint8_t*)` reads, with its reader at the end
(VariantList.cpp:74-84); the constructor leaves the two other members unset. -/
def ofData (pData : Bytes) : Option (List Variant × BinaryReader) :=
  (do
    let objectCount ← read UInt8
    serializeObjects objectCount.toNat) (BinaryReader.mk pData)

def create (vType : Bytes) (executionDelay : Int32 := -1) (netId : Int32 := -1) : VariantList :=
  ⟨executionDelay, netId, [.string vType]⟩

/-- An access to an element that the vector does not have. -/
structure OutsideVector where
  index : ℕ
  deriving DecidableEq, Repr

def empty : VariantList := ⟨0, -1, []⟩

-- an index is unsigned, so the second half of the guard never applies
def get (l : VariantList) (index : ℕ) : Except OutsideVector Variant :=
  if index > l.m_objects.length then .ok (.int 0)
  else
    match l.m_objects[index]? with
    | some var => .ok var
    | none => .error ⟨index⟩

def set (l : VariantList) (index : ℕ) (data : Variant) : Except OutsideVector VariantList :=
  if index > l.m_objects.length then .ok l
  else if index < l.m_objects.length then .ok { l with m_objects := l.m_objects.set index data }
  else .error ⟨index⟩

def insert (l : VariantList) (data : Variant) : VariantList :=
  { l with m_objects := l.m_objects ++ [data] }

def objectsEncoding : ℕ → List Variant → Bytes
  | _, [] => []
  | index, obj :: objs =>
    Pod.toBytes (UInt8.ofNat index) ++ (obj.encoding ++ objectsEncoding (index + 1) objs)

def encoding (l : VariantList) : Bytes :=
  Pod.toBytes (UInt8.ofNat l.m_objects.length) ++ objectsEncoding 0 l.m_objects

theorem usage_foldl (objs : List Variant) (index n : ℕ) :
    objs.foldl (fun memoryAlloc obj => memoryAlloc + (obj.getMemoryUsage + 1)) n =
      n + (objectsEncoding index objs).length := by
  induction objs generalizing index n with
  | nil => rfl
  | cons obj objs ih =>
    have hindex : (Pod.toBytes (UInt8.ofNat index)).length = 1 := Pod.length_toBytes _
    simp only [List.foldl_cons, objectsEncoding, List.length_append, hindex,
      Variant.encoding_length]
    rw [ih (index + 1)]
    omega

theorem encoding_length (l : VariantList) : l.encoding.length = l.getMemoryUsage := by
  have hcount : (Pod.toBytes (UInt8.ofNat l.m_objects.length)).length = 1 := Pod.length_toBytes _
  rw [getMemoryUsage, usage_foldl l.m_objects 0 1, encoding, List.length_append, hcount]

theorem getMemoryUsage_le {l : VariantList} {obj : Variant} (h : obj ∈ l.m_objects) :
    obj.getMemoryUsage ≤ l.getMemoryUsage := by
  have hlength (objs : List Variant) (index : ℕ) (hmem : obj ∈ objs) :
      obj.getMemoryUsage ≤ (objectsEncoding index objs).length := by
    induction objs generalizing index with
    | nil => cases hmem
    | cons other objs ih =>
      simp only [objectsEncoding, List.length_append, Variant.encoding_length]
      rcases List.mem_cons.mp hmem with rfl | hmem
      · omega
      · have htail := ih (index + 1) hmem
        omega
  have hle := hlength l.m_objects 0 h
  rw [getMemoryUsage, usage_foldl l.m_objects 0 1]
  omega

theorem fits_of_getMemoryUsage (l : VariantList) (h : l.getMemoryUsage < 2 ^ 32) :
    ∀ v ∈ l.m_objects, v.Fits := by
  intro v hv
  have hle := getMemoryUsage_le hv
  cases v with
  | string s =>
    show s.length < 2 ^ 32
    simp only [Variant.getMemoryUsage] at hle
    omega
  | _ => trivial

theorem writes_packObjects (index : ℕ) (objs : List Variant) :
    Writes (packObjects index objs) (objectsEncoding index objs) := by
  induction objs generalizing index with
  | nil => exact Writes.nil
  | cons obj objs ih =>
    exact Writes.bind (writes_write _) (Writes.bind obj.writes_pack (ih (index + 1)))

theorem writes_packInto (l : VariantList) : Writes l.packInto l.encoding :=
  Writes.bind (writes_write _) (writes_packObjects 0 l.m_objects)

/-- `Pack` fills its whole allocation, for every list. -/
theorem packBuffer_spec (l : VariantList) :
    ∃ buffer, l.packBuffer = some buffer ∧ buffer.position = l.getMemoryUsage ∧
      buffer.buffer = l.encoding := by
  obtain ⟨buffer, hrun, hwritten, hpos, hlen⟩ :=
    writes_alloc l.writes_packInto l.getMemoryUsage l.encoding_length.le
  rw [encoding_length] at hpos
  refine ⟨buffer, by rw [packBuffer, hrun, Option.map_some], hpos, ?_⟩
  rw [← hwritten, Sink.written, hpos, ← hlen, List.take_length]

theorem pack_eq (l : VariantList) : l.pack = some l.encoding := by
  obtain ⟨buffer, hbuffer, _, henc⟩ := l.packBuffer_spec
  rw [pack, hbuffer, Option.map_some, henc, ← encoding_length, List.take_length]

theorem reads_serializeObjects (objs : List Variant) (index : ℕ) (h : ∀ v ∈ objs, v.Fits) :
    Reads (serializeObjects objs.length) (objectsEncoding index objs) objs := by
  induction objs generalizing index with
  | nil => exact Reads.pure []
  | cons obj objs ih =>
    have hobj : obj.Fits := h obj (List.mem_cons_self ..)
    have hobjs : ∀ v ∈ objs, v.Fits := fun v hv => h v (List.mem_cons_of_mem _ hv)
    refine Reads.bind (reads_skip (Pod.toBytes (UInt8.ofNat index))) ?_
    refine Reads.bind (Variant.reads_serialize obj hobj) ?_
    exact (ih (index + 1) hobjs).bind_pure (obj :: ·)

theorem ofData_encoding (l : VariantList) (hcount : l.m_objects.length ≤ 255)
    (hfits : ∀ v ∈ l.m_objects, v.Fits) (t : Bytes) :
    ofData (l.encoding ++ t) = some (l.m_objects, ⟨l.encoding ++ t, l.getMemoryUsage⟩) := by
  have hn : (UInt8.ofNat l.m_objects.length).toNat = l.m_objects.length := by
    rw [UInt8.toNat_ofNat']
    omega
  have hobjs := reads_serializeObjects l.m_objects 0 hfits
  rw [← hn] at hobjs
  have hall : Reads (read UInt8 >>= fun objectCount => serializeObjects objectCount.toNat)
      l.encoding l.m_objects := Reads.bind (reads_read (UInt8.ofNat l.m_objects.length)) hobjs
  rw [← l.encoding_length]
  exact reads_mk hall t

theorem stable_serializeObjects (n : ℕ) : Stable (serializeObjects n) := by
  induction n with
  | zero => exact Stable.pure []
  | succ n ih =>
    exact Stable.bind (stable_skip 1) fun _ => Stable.bind Variant.stable_serialize fun _ =>
      Stable.bind ih fun _ => Stable.pure _

theorem serializeObjects_inside (n : ℕ) {c c' : BinaryReader} {objs : List Variant}
    (h : serializeObjects n c = some (objs, c')) (hc : c.position ≤ c.data.length) :
    c'.data = c.data ∧ c'.position ≤ c'.data.length ∧ ∀ v ∈ objs, v.Fits := by
  induction n generalizing c c' objs with
  | zero =>
    obtain ⟨rfl, rfl⟩ := pure_eq_some.mp h
    exact ⟨rfl, hc, nofun⟩
  | succ n ih =>
    obtain ⟨_, c1, hskip, hrest⟩ := bind_eq_some.mp h
    obtain ⟨vObject, c2, hobj, hrest⟩ := bind_eq_some.mp hrest
    obtain ⟨tail, c3, htail, hpure⟩ := bind_eq_some.mp hrest
    obtain ⟨rfl, rfl⟩ := pure_eq_some.mp hpure
    obtain ⟨-, rfl⟩ := Prod.mk.inj (Option.some.inj hskip)
    obtain ⟨hdata, hinside⟩ :=
      (Variant.parses_serialize.weaken fun _ _ hparsed => hparsed.2).inside hobj
    obtain ⟨_, _, _, hfits, _⟩ := Variant.parses_serialize _ _ _ hobj
    obtain ⟨hdata', hinside', hall⟩ := ih htail hinside
    exact ⟨hdata'.trans hdata, hinside', List.forall_mem_cons.mpr ⟨hfits, hall⟩⟩

/-- A list is not read back from less than its whole encoding. -/
theorem usage_le_of_ofData_take {l : VariantList} {k : ℕ} {br : BinaryReader}
    (hcount : l.m_objects.length ≤ 255)
    (h : ofData (l.encoding.take k) = some (l.m_objects, br)) : l.getMemoryUsage ≤ k := by
  have hstable : Stable (read UInt8 >>= fun objectCount => serializeObjects objectCount.toNat) :=
    Stable.bind stable_readPod fun _ => stable_serializeObjects _
  obtain ⟨objectCount, c1, hfirst, hobjs⟩ := bind_eq_some.mp h
  have hbyte : Parses (read UInt8) fun _ bs => bs ≠ [] := by
    refine Parses.weaken parses_readPod ?_
    intro a bs heq hnil
    subst heq
    cases hnil
  obtain ⟨hdata, hinside⟩ := hbyte.inside hfirst
  obtain ⟨hdata', hinside', hfits⟩ := serializeObjects_inside _ hobjs hinside
  have hfull := hstable _ _ _ (l.encoding.drop k) h
  have hread := l.ofData_encoding hcount hfits []
  rw [List.append_nil] at hread
  have hextend : (BinaryReader.mk (l.encoding.take k)).extend (l.encoding.drop k) =
      BinaryReader.mk l.encoding := congrArg BinaryReader.mk (List.take_append_drop k _)
  rw [hextend] at hfull
  have hposition : br.position = l.getMemoryUsage :=
    congrArg Cursor.position (Prod.mk.inj (Option.some.inj (hfull.symm.trans hread))).2
  have hlength : br.data.length ≤ k := by
    rw [hdata', hdata]
    exact List.length_take_le k _
  omega

/-- Codec round trip with the exact size: `Pack` writes `GetMemoryUsage` bytes,
its whole buffer and nothing else, and the constructor reads exactly these back
to the same objects. -/
theorem pack_ofData_roundtrip (l : VariantList) (hcount : l.m_objects.length ≤ 255)
    (hstr : ∀ s, Variant.string s ∈ l.m_objects → s.length < 2 ^ 32) :
    ∃ buffer pData br,
      l.packBuffer = some buffer ∧ buffer.position = l.getMemoryUsage ∧
      buffer.buffer.length = l.getMemoryUsage ∧
      l.pack = some pData ∧ pData = buffer.written ∧
      ofData pData = some (l.m_objects, br) ∧ br.position = l.getMemoryUsage := by
  have hfits : ∀ v ∈ l.m_objects, v.Fits := by
    intro v hv
    cases v with
    | string s => exact hstr s hv
    | _ => trivial
  obtain ⟨buffer, hbuffer, hpos, henc⟩ := l.packBuffer_spec
  have hread := l.ofData_encoding hcount hfits []
  rw [List.append_nil] at hread
  refine ⟨buffer, l.encoding, _, hbuffer, hpos, ?_, l.pack_eq, ?_, hread, rfl⟩
  · rw [henc, encoding_length]
  · rw [Sink.written, hpos, henc, ← encoding_length, List.take_length]

theorem pack_ofData_roundtrip_mixed :
    let l : VariantList := ⟨0, -1, [.string [79, 110], .float 0x3F800000, .vector2 ⟨1, 2⟩,
      .vector3 ⟨3, 4, 5⟩, .unsignedInt 6, .int (-7)]⟩
    ∃ buffer pData br,
      l.packBuffer = some buffer ∧ buffer.position = l.getMemoryUsage ∧
      buffer.buffer.length = l.getMemoryUsage ∧
      l.pack = some pData ∧ pData = buffer.written ∧
      ofData pData = some (l.m_objects, br) ∧ br.position = l.getMemoryUsage :=
  pack_ofData_roundtrip ⟨0, -1, [.string [79, 110], .float 0x3F800000, .vector2 ⟨1, 2⟩,
    .vector3 ⟨3, 4, 5⟩, .unsignedInt 6, .int (-7)]⟩ (by decide) (by
      intro s hs
      have hs' : s = [79, 110] := by simpa using hs
      rw [hs']
      decide)

end VariantList

end GrowServer
