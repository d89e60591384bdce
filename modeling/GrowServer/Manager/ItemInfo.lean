import GrowServer.Utils.BinaryIO

/-!
# ItemInfo (Manager/Item/ItemInfo.hpp)

One record of `items.dat`: the fields of the format in the order in which `Pack`
writes and `Serialize` reads them. The name is ciphered with a key offset by the
item id, so the id has to be read before it; the clothing type is a 32-bit member
that occupies one byte of the file. `Serialize` also derives two members that
are not in the file.
-/

namespace GrowServer
open LittleEndian ByteStream BinaryReader BinaryWriter

structure ItemPet where
  m_name : Bytes := []
  m_prefix : Bytes := []
  m_suffix : Bytes := []
  m_ability : Bytes := []
  deriving DecidableEq, Repr

structure ItemSeed where
  m_base : UInt8 := 0
  m_overlay : UInt8 := 0
  m_color : UInt32 := 0
  m_overlayColor : UInt32 := 0
  deriving DecidableEq, Repr

structure ItemTree where
  m_base : UInt8 := 0
  m_leaves : UInt8 := 0
  deriving DecidableEq, Repr

structure ItemInfo where
  m_Id : UInt32 := 0
  m_editableType : UInt8 := 0
  m_itemCategory : UInt8 := 0
  m_itemType : UInt8 := 0
  m_material : UInt8 := 0
  m_name : Bytes := []
  m_textureFile : Bytes := []
  m_textureFileHash : UInt32 := 0
  m_visualEffect : UInt8 := 0
  m_flags1 : UInt32 := 0
  m_ingredient : UInt32 := 0
  m_texture : CLVec2 UInt8 := ⟨0, 0⟩
  m_spreadType : UInt8 := 0
  m_isStripeyWallpaper : UInt8 := 0
  m_collisionType : UInt8 := 0
  m_breakHits : UInt8 := 0
  m_resetTime : UInt32 := 0
  m_growTime : UInt32 := 0
  m_clothingType : UInt32 := 0
  m_rarity : UInt16 := 0
  m_maxAmount : UInt8 := 0
  m_extraFile : Bytes := []
  m_extraFileHash : UInt32 := 0
  m_audioVolume : UInt32 := 0
  m_pet : ItemPet := {}
  m_seed : ItemSeed := {}
  m_tree : ItemTree := {}
  m_flags2 : UInt16 := 0
  m_rayman : UInt16 := 0
  m_extraOptions1 : Bytes := []
  m_textureFile2 : Bytes := []
  m_extraOptions2 : Bytes := []
  m_punchOptions : Bytes := []
  m_unknownVal3 : UInt32 := 0
  m_unknownVal4 : UInt32 := 0
  m_unknownVal5 : UInt32 := 0
  m_bodypart : List.Vector UInt8 9 := List.Vector.replicate 9 0
  m_reserved : List.Vector UInt8 80 := List.Vector.replicate 80 0
  m_hasExtra : Bool := false
  m_defaultTexture : CLVec2 UInt8 := ⟨0, 0⟩
  deriving DecidableEq

namespace ItemInfo

def cypherKey : Bytes := ascii "PBG892FXX982ABC*"

/-- ItemInfo.hpp:85-92; `index + m_Id` wraps at 32 bits. The index of the loop has 32 bits
too, so that on an input of 2^32 bytes or more the source does not come to an end. -/
def cypher (m_Id : UInt32) (input : Bytes) : Bytes :=
  input.mapIdx fun index c =>
    c ^^^ cypherKey.getD ((UInt32.ofNat index + m_Id).toNat % cypherKey.length) 0

theorem cypher_length (m_Id : UInt32) (input : Bytes) :
    (cypher m_Id input).length = input.length := List.length_mapIdx

theorem cypher_cypher (m_Id : UInt32) (input : Bytes) :
    cypher m_Id (cypher m_Id input) = input := by
  apply List.ext_getElem
  · rw [cypher_length, cypher_length]
  · intro i h1 h2
    simp only [cypher, List.getElem_mapIdx]
    rw [UInt8.xor_assoc, UInt8.xor_self, UInt8.xor_zero]

def getMemoryUsage (it : ItemInfo) : ℕ :=
  8 + (2 + it.m_name.length) + (2 + it.m_textureFile.length) + 34 + (2 + it.m_extraFile.length)
    + 12 + (2 + it.m_pet.m_name.length) + (2 + it.m_pet.m_prefix.length)
    + (2 + it.m_pet.m_suffix.length) + (2 + it.m_pet.m_ability.length) + 16
    + (2 + it.m_extraOptions1.length) + (2 + it.m_textureFile2.length)
    + (2 + it.m_extraOptions2.length) + 80 + (2 + it.m_punchOptions.length) + 21

def pack (it : ItemInfo) : Writer Unit := do
  write it.m_Id
  write it.m_editableType
  write it.m_itemCategory
  write it.m_itemType
  write it.m_material
  writeString (cypher it.m_Id it.m_name)
  writeString it.m_textureFile 2
  write it.m_textureFileHash
  write it.m_visualEffect
  write it.m_flags1
  write it.m_texture.X
  write it.m_texture.Y
  write it.m_spreadType
  write it.m_isStripeyWallpaper
  write it.m_collisionType
  write it.m_breakHits
  write it.m_resetTime
  write it.m_clothingType.toUInt8
  write it.m_rarity
  write it.m_maxAmount
  writeString it.m_extraFile
  write it.m_extraFileHash
  write it.m_audioVolume
  writeString it.m_pet.m_name
  writeString it.m_pet.m_prefix
  writeString it.m_pet.m_suffix
  writeString it.m_pet.m_ability
  write it.m_seed.m_base
  write it.m_seed.m_overlay
  write it.m_tree.m_base
  write it.m_tree.m_leaves
  write it.m_seed.m_color
  write it.m_seed.m_overlayColor
  write it.m_ingredient
  write it.m_growTime
  write it.m_flags2
  write it.m_rayman
  writeString it.m_extraOptions1
  writeString it.m_textureFile2 2
  writeString it.m_extraOptions2
  writeMany it.m_reserved.toList
  writeString it.m_punchOptions
  write it.m_unknownVal3
  writeMany it.m_bodypart.toList
  write it.m_unknownVal4
  write it.m_unknownVal5

-- `TILESPREAD_DIRECT8`, `TILESPREAD_DIRECT4`, `TILESPREAD_HORIZONTAL`, `TILESPREAD_VERTICAL`
def defaultTexture (m_spreadType : UInt8) (m_texture : CLVec2 UInt8) : CLVec2 UInt8 :=
  if m_spreadType = 2 ∨ m_spreadType = 5 then ⟨m_texture.X + 4, m_texture.Y + 1⟩
  else if m_spreadType = 3 ∨ m_spreadType = 7 then ⟨m_texture.X + 3, m_texture.Y⟩
  else ⟨m_texture.X, m_texture.Y⟩

/-- The item types of the last switch of `Serialize` (ItemInfo.hpp:251-339), as
their values in `eItemTypes`. -/
def extraTypes : List UInt8 :=
  [2, 3, 10, 13, 19, 26, 33, 34, 36, 38, 40, 43, 46, 47, 48, 49, 50, 51, 52, 53, 54, 55, 56, 57,
    59, 61, 62, 63, 65, 66, 67, 68, 71, 72, 73, 74, 75, 76, 77, 78, 79, 80, 81, 82, 83, 84, 85,
    86, 87, 88, 89, 91, 92, 93, 96, 97, 98, 99, 100, 101, 102, 103, 104, 105, 106, 109, 111, 113,
    115, 116, 117, 118, 123, 124, 125, 126, 127, 130, 131, 134, 141, 142, 30, 133]

def serialize : Reader ItemInfo := do
  let m_Id ← read UInt32
  let m_editableType ← read UInt8
  let m_itemCategory ← read UInt8
  let m_itemType ← read UInt8
  let m_material ← read UInt8
  let name ← readStringU16
  let m_textureFile ← readStringU16
  let m_textureFileHash ← read UInt32
  let m_visualEffect ← read UInt8
  let m_flags1 ← read UInt32
  let textureX ← read UInt8
  let textureY ← read UInt8
  let m_spreadType ← read UInt8
  let m_isStripeyWallpaper ← read UInt8
  let m_collisionType ← read UInt8
  let m_breakHits ← read UInt8
  let m_resetTime ← read UInt32
  let clothingType ← read UInt8
  let m_rarity ← read UInt16
  let m_maxAmount ← read UInt8
  let m_extraFile ← readStringU16
  let m_extraFileHash ← read UInt32
  let m_audioVolume ← read UInt32
  let petName ← readStringU16
  let petPrefix ← readStringU16
  let petSuffix ← readStringU16
  let petAbility ← readStringU16
  let seedBase ← read UInt8
  let seedOverlay ← read UInt8
  let treeBase ← read UInt8
  let treeLeaves ← read UInt8
  let seedColor ← read UInt32
  let seedOverlayColor ← read UInt32
  let m_ingredient ← read UInt32
  let m_growTime ← read UInt32
  let m_flags2 ← read UInt16
  let m_rayman ← read UInt16
  let m_extraOptions1 ← readStringU16
  let m_textureFile2 ← readStringU16
  let m_extraOptions2 ← readStringU16
  let m_reserved ← readMany UInt8 80
  let m_punchOptions ← readStringU16
  let m_unknownVal3 ← read UInt32
  let m_bodypart ← readMany UInt8 9
  let m_unknownVal4 ← read UInt32
  let m_unknownVal5 ← read UInt32
  return {
    m_Id, m_editableType, m_itemCategory, m_itemType, m_material
    m_name := cypher m_Id name
    m_textureFile, m_textureFileHash, m_visualEffect, m_flags1
    m_texture := ⟨textureX, textureY⟩
    m_spreadType, m_isStripeyWallpaper, m_collisionType, m_breakHits, m_resetTime
    m_clothingType := clothingType.toUInt32
    m_rarity, m_maxAmount, m_extraFile, m_extraFileHash, m_audioVolume
    m_pet := ⟨petName, petPrefix, petSuffix, petAbility⟩
    m_seed := ⟨seedBase, seedOverlay, seedColor, seedOverlayColor⟩
    m_tree := ⟨treeBase, treeLeaves⟩
    m_ingredient, m_growTime, m_flags2, m_rayman, m_extraOptions1, m_textureFile2
    m_extraOptions2, m_reserved, m_punchOptions, m_unknownVal3, m_bodypart, m_unknownVal4
    m_unknownVal5
    m_defaultTexture := defaultTexture m_spreadType ⟨textureX, textureY⟩
    m_hasExtra := extraTypes.contains m_itemType }

/-! ### The bytes of a record -/

def encoding (it : ItemInfo) : Bytes :=
  [Pod.toBytes it.m_Id, Pod.toBytes it.m_editableType, Pod.toBytes it.m_itemCategory,
    Pod.toBytes it.m_itemType, Pod.toBytes it.m_material,
    counted 2 (cypher it.m_Id it.m_name), counted 2 it.m_textureFile,
    Pod.toBytes it.m_textureFileHash, Pod.toBytes it.m_visualEffect, Pod.toBytes it.m_flags1,
    Pod.toBytes it.m_texture.X, Pod.toBytes it.m_texture.Y, Pod.toBytes it.m_spreadType,
    Pod.toBytes it.m_isStripeyWallpaper, Pod.toBytes it.m_collisionType,
    Pod.toBytes it.m_breakHits, Pod.toBytes it.m_resetTime, Pod.toBytes it.m_clothingType.toUInt8,
    Pod.toBytes it.m_rarity, Pod.toBytes it.m_maxAmount, counted 2 it.m_extraFile,
    Pod.toBytes it.m_extraFileHash, Pod.toBytes it.m_audioVolume, counted 2 it.m_pet.m_name,
    counted 2 it.m_pet.m_prefix, counted 2 it.m_pet.m_suffix, counted 2 it.m_pet.m_ability,
    Pod.toBytes it.m_seed.m_base, Pod.toBytes it.m_seed.m_overlay, Pod.toBytes it.m_tree.m_base,
    Pod.toBytes it.m_tree.m_leaves, Pod.toBytes it.m_seed.m_color,
    Pod.toBytes it.m_seed.m_overlayColor, Pod.toBytes it.m_ingredient, Pod.toBytes it.m_growTime,
    Pod.toBytes it.m_flags2, Pod.toBytes it.m_rayman, counted 2 it.m_extraOptions1,
    counted 2 it.m_textureFile2, counted 2 it.m_extraOptions2,
    it.m_reserved.toList.flatMap Pod.toBytes, counted 2 it.m_punchOptions,
    Pod.toBytes it.m_unknownVal3, it.m_bodypart.toList.flatMap Pod.toBytes,
    Pod.toBytes it.m_unknownVal4, Pod.toBytes it.m_unknownVal5].flatten

/-- The item with the two derived members `Serialize` computes. -/
def derived (it : ItemInfo) : ItemInfo :=
  { it with
    m_defaultTexture := defaultTexture it.m_spreadType it.m_texture
    m_hasExtra := extraTypes.contains it.m_itemType }

def strings (it : ItemInfo) : List Bytes :=
  [it.m_name, it.m_textureFile, it.m_extraFile, it.m_pet.m_name, it.m_pet.m_prefix,
    it.m_pet.m_suffix, it.m_pet.m_ability, it.m_extraOptions1, it.m_textureFile2,
    it.m_extraOptions2, it.m_punchOptions]

/-- What the format can hold: 16-bit string lengths, a one-byte clothing type. -/
structure Encodable (it : ItemInfo) : Prop where
  strings_le : ∀ s ∈ it.strings, s.length ≤ 65535
  clothingType_le : it.m_clothingType ≤ 255

theorem clothingType_cast {v : UInt32} (h : v ≤ 255) : v.toUInt8.toUInt32 = v := by
  have hle : v.toNat ≤ 255 := UInt32.le_iff_toNat_le.mp h
  apply UInt32.toNat_inj.mp
  rw [UInt32.toUInt32_toUInt8, UInt32.toNat_mod]
  exact Nat.mod_eq_of_lt (Nat.lt_succ_of_le hle)

@[simp] theorem counted_length (n : ℕ) (s : Bytes) : (counted n s).length = n + s.length := by
  rw [counted, List.length_append, leBytes_length]

theorem flatMap_byte_length (bs : Bytes) : (bs.flatMap Pod.toBytes).length = bs.length := by
  induction bs with
  | nil => rfl
  | cons b bs ih =>
    rw [List.flatMap_cons, List.length_append, ih, List.length_cons, Nat.add_comm]
    rfl

theorem encoding_length (it : ItemInfo) : it.encoding.length + 7 = it.getMemoryUsage := by
  simp only [encoding, List.flatten_cons, List.flatten_nil, List.length_append, List.length_nil,
    Pod.length_toBytes, counted_length, flatMap_byte_length, cypher_length,
    List.Vector.toList_length, size_uint8, size_uint16, size_uint32, getMemoryUsage]
  omega

theorem writes_pack (it : ItemInfo) : Writes it.pack it.encoding := by
  unfold pack encoding
  repeat first
    | refine Writes.cons (writes_write _) ?_
    | refine Writes.cons (writes_writeString _ _) ?_
    | refine Writes.cons (writes_writeMany _) ?_
  exact Writes.single (writes_write _)

/-- Where its bytes fit, a record is packed inside the buffer and advances the writer by
at most its memory usage. -/
theorem pack_advance (it : ItemInfo) (s : BinaryWriter) (h : s.Room it.encoding.length) :
    ∃ s', it.pack s = some ((), s') ∧ s'.position ≤ s.position + it.getMemoryUsage ∧
      s'.position ≤ s.buffer.length := by
  have hlength := it.encoding_length
  have hroom : s.position + it.encoding.length ≤ s.buffer.length := h
  refine ⟨s.put it.encoding, it.writes_pack s h, ?_, ?_⟩
  · rw [Sink.put_position]
    omega
  · rw [Sink.put_position]
    exact hroom

theorem reads_serialize (it : ItemInfo) (h : it.Encodable) :
    Reads serialize it.encoding it.derived := by
  have hstrings := h.strings_le
  simp only [strings, List.forall_mem_cons] at hstrings
  obtain ⟨hname, h2, h3, h4, h5, h6, h7, h8, h9, h10, h11, -⟩ := hstrings
  have hcypher : (cypher it.m_Id it.m_name).length ≤ 65535 := by rwa [cypher_length]
  have hitem : ({ it with
      m_name := cypher it.m_Id (cypher it.m_Id it.m_name)
      m_clothingType := it.m_clothingType.toUInt8.toUInt32
      m_defaultTexture := defaultTexture it.m_spreadType it.m_texture
      m_hasExtra := extraTypes.contains it.m_itemType } : ItemInfo) = it.derived := by
    rw [cypher_cypher, clothingType_cast h.clothingType_le]
    rfl
  rw [← hitem]
  unfold serialize encoding
  repeat first
    | refine Reads.cons (reads_read _) ?_
    | refine Reads.cons (reads_readStringU16 _ (by assumption)) ?_
    | refine Reads.cons (reads_readMany _) ?_
  exact Reads.pure _

theorem toUInt32_le (v : UInt8) : v.toUInt32 ≤ 255 := by
  have hlt := v.toNat_lt
  rw [UInt32.le_iff_toNat_le, UInt8.toNat_toUInt32]
  exact Nat.le_of_lt_succ hlt

/-- The converse: whatever was decoded fits the format, and the bytes read are its
encoding. -/
theorem parses_serialize : Parses serialize (fun it bs => bs = it.encoding ∧ it.Encodable) := by
  unfold serialize
  repeat first
    | refine parses_read_bind fun _ => ?_
    | refine parses_readStringU16_bind fun _ _ => ?_
    | refine parses_readMany_bind fun _ => ?_
  refine Parses.pure ⟨?_, ?_, toUInt32_le _⟩
  · simp only [encoding, cypher_cypher, UInt8.toUInt8_toUInt32, List.flatten_cons,
      List.flatten_nil]
  · simp only [strings, List.forall_mem_cons, cypher_length, List.not_mem_nil, false_imp_iff,
      implies_true, and_true]
    repeat' apply And.intro
    all_goals assumption

end ItemInfo

end GrowServer
