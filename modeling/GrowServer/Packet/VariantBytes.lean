import GrowServer.Packet.VariantList

/-!
# What the constructor of a VariantList accepts (Packet/VariantList.cpp)

The constructor skips the index of each object, and takes an object of an unknown type for
the float 0 without reading a value. So what it accepts is more than what `Pack` writes, and
decoding and packing again is a way to bring bytes to the form that `Pack` writes.
-/

namespace GrowServer
open LittleEndian ByteStream BinaryReader BinaryWriter

theorem toBytes_uint8 (b : UInt8) : Pod.toBytes b = [b] := by
  rw [toBytes_word]
  exact congrArg (fun b => [b]) (UInt8.ofNat_toNat (x := b))

/-- A byte that is skipped is one that was there, if what is behind it is read. -/
theorem parses_skip_bind {α : Type} {m : Reader α} {P : α → Bytes → Prop} (hm : Parses m P)
    (hne : ∀ a bs, P a bs → bs ≠ []) :
    Parses (skip 1 >>= fun _ => m) fun a bs => ∃ b cs, bs = b :: cs ∧ P a cs := by
  intro c a c' h
  obtain ⟨_, d, hskip, hread⟩ := bind_eq_some.mp h
  obtain ⟨-, rfl⟩ := Prod.mk.inj (Option.some.inj hskip)
  obtain ⟨cs, rfl, hrest, hP⟩ := hm _ a c' hread
  rw [Cursor.rest_advance] at hrest
  cases hfront : c.rest with
  | nil =>
    rw [hfront, List.drop_nil] at hrest
    exact absurd (List.append_eq_nil_iff.mp hrest.symm).1 (hne a cs hP)
  | cons b rest =>
    rw [hfront, List.drop_one, List.tail_cons] at hrest
    refine ⟨b :: cs, ?_, ?_, b, cs, rfl, hP⟩
    · rw [Cursor.advance_advance, List.length_cons, Nat.add_comm]
    · rw [hrest, List.cons_append]

/-- An object as it stands in the bytes, with the index and the type that it has there. -/
structure RawVariant where
  index : UInt8
  objType : UInt8
  object : Variant

namespace RawVariant

def payload (raw : RawVariant) : Bytes :=
  if VariantType.cast raw.objType = .none then [] else raw.object.payload

def bytes (raw : RawVariant) : Bytes := raw.index :: raw.objType :: raw.payload

/-- The object is of its type, and is the default one where the type is unknown. -/
structure Lawful (raw : RawVariant) : Prop where
  fits : raw.object.Fits
  unknown : VariantType.cast raw.objType = .none → raw.object = .float 0
  known : VariantType.cast raw.objType ≠ .none → raw.object.getType = VariantType.cast raw.objType

/-- The index is its own, and the type is one that has an enumerator. -/
def Regular (raw : RawVariant) (index : ℕ) : Prop :=
  raw.index = UInt8.ofNat index ∧ VariantType.cast raw.objType ≠ .none

/-- The objects are numbered from `index` on. -/
def AllRegular (index : ℕ) (raws : List RawVariant) : Prop :=
  ∀ (i : ℕ) (raw : RawVariant), raws[i]? = some raw → raw.Regular (index + i)

theorem allRegular_cons (index : ℕ) (raw : RawVariant) (raws : List RawVariant) :
    AllRegular index (raw :: raws) ↔ raw.Regular index ∧ AllRegular (index + 1) raws := by
  constructor
  · intro h
    refine ⟨h 0 raw rfl, ?_⟩
    intro i other hother
    have hregular := h (i + 1) other hother
    rwa [← Nat.add_assoc, Nat.add_right_comm] at hregular
  · intro h
    obtain ⟨hraw, hraws⟩ := h
    intro i other hother
    cases i with
    | zero =>
      obtain rfl := Option.some.inj hother
      exact hraw
    | succ i =>
      have hregular := hraws i other hother
      rwa [Nat.add_right_comm, Nat.add_assoc] at hregular

end RawVariant

theorem VariantType.value_cast {v : UInt8} (h : VariantType.cast v ≠ .none) :
    (VariantType.cast v).value = v := by
  unfold VariantType.cast at h ⊢
  repeat' split
  all_goals simp_all [VariantType.value]

namespace Variant

theorem parses_serialize_bytes :
    Parses serialize fun object bs => ∃ raw : RawVariant, raw.object = object ∧
      bs = raw.objType :: raw.payload ∧ raw.Lawful := by
  refine parses_read_bind fun objType => ?_
  have hknown {object : Variant} (hfits : object.Fits)
      (htype : object.getType = VariantType.cast objType)
      (hne : VariantType.cast objType ≠ .none) :
      ∃ raw : RawVariant, raw.object = object ∧
        Pod.toBytes objType ++ object.payload = raw.objType :: raw.payload ∧ raw.Lawful := by
    refine ⟨⟨0, objType, object⟩, rfl, ?_, hfits, fun hnone => absurd hnone hne, fun _ => htype⟩
    rw [RawVariant.payload, if_neg hne, toBytes_uint8]
    rfl
  cases hcast : VariantType.cast objType with
  | none =>
    refine Parses.pure ⟨⟨0, objType, float 0⟩, rfl, ?_, trivial, fun _ => rfl, ?_⟩
    · rw [RawVariant.payload, if_pos hcast, toBytes_uint8]
      rfl
    · exact fun hne => absurd hcast hne
  | float =>
    refine parses_read_bind fun v => Parses.pure ?_
    rw [List.append_nil]
    exact hknown trivial hcast.symm (by simp [hcast])
  | string =>
    refine parses_readCounted_bind UInt32 fun s hs => Parses.pure ?_
    rw [List.append_nil]
    exact hknown hs hcast.symm (by simp [hcast])
  | vector2 =>
    refine parses_read_bind fun v => Parses.pure ?_
    rw [List.append_nil]
    exact hknown trivial hcast.symm (by simp [hcast])
  | vector3 =>
    refine parses_read_bind fun v => Parses.pure ?_
    rw [List.append_nil]
    exact hknown trivial hcast.symm (by simp [hcast])
  | unsignedInt =>
    refine parses_read_bind fun v => Parses.pure ?_
    rw [List.append_nil]
    exact hknown trivial hcast.symm (by simp [hcast])
  | int =>
    refine parses_read_bind fun v => Parses.pure ?_
    rw [List.append_nil]
    exact hknown trivial hcast.symm (by simp [hcast])

end Variant

namespace VariantList

/-- The objects are those of a list of raw ones, whose bytes were read. -/
def RawObjects (n : ℕ) (objs : List Variant) (bs : Bytes) : Prop :=
  ∃ raws : List RawVariant, raws.map RawVariant.object = objs ∧ raws.length = n ∧
    bs = raws.flatMap RawVariant.bytes ∧ ∀ raw ∈ raws, raw.Lawful

theorem parses_serializeObjects (n : ℕ) : Parses (serializeObjects n) (RawObjects n) := by
  induction n with
  | zero => exact Parses.pure ⟨[], rfl, rfl, rfl, nofun⟩
  | succ n ih =>
    have hobject : Parses (Variant.serialize >>= fun vObject => do
        let objs ← serializeObjects n
        return vObject :: objs) fun objs bs => ∃ raw : RawVariant, ∃ rest cs,
          objs = raw.object :: rest ∧ bs = raw.objType :: (raw.payload ++ cs) ∧ raw.Lawful ∧
            RawObjects n rest cs := by
      refine Parses.bind Variant.parses_serialize_bytes ?_
      intro object bs hread
      obtain ⟨raw, rfl, rfl, hlawful⟩ := hread
      refine Parses.bind ih ?_
      intro rest cs hrest
      refine Parses.pure ⟨raw, rest, cs, rfl, ?_, hlawful, hrest⟩
      rw [List.append_nil]
      rfl
    refine (parses_skip_bind hobject ?_).weaken ?_
    · intro objs bs hread
      obtain ⟨raw, rest, cs, -, rfl, -⟩ := hread
      exact List.cons_ne_nil _ _
    · intro objs bs hread
      obtain ⟨index, tail, rfl, raw, rest, cs, rfl, rfl, hlawful, raws, rfl, rfl, rfl, hraws⟩ := hread
      refine ⟨⟨index, raw.objType, raw.object⟩ :: raws, rfl, rfl, ?_, ?_⟩
      · rfl
      · exact List.forall_mem_cons.mpr
          ⟨⟨hlawful.fits, hlawful.unknown, hlawful.known⟩, hraws⟩

/-- Packed again, an object has its bytes back exactly when it was regular. Otherwise it is
as long, with another index, or is longer. -/
theorem bytes_eq_iff {raw : RawVariant} (h : raw.Lawful) (index : ℕ) {bs cs : Bytes}
    (hlength : cs.length ≤ bs.length) :
    Pod.toBytes (UInt8.ofNat index) ++ (raw.object.encoding ++ bs) = raw.bytes ++ cs ↔
      raw.Regular index ∧ bs = cs := by
  have hencoding : Pod.toBytes (UInt8.ofNat index) ++ (raw.object.encoding ++ bs) =
      UInt8.ofNat index :: raw.object.getType.value :: (raw.object.payload ++ bs) := by
    rw [Variant.encoding, toBytes_uint8, toBytes_uint8]
    rfl
  rw [hencoding, RawVariant.bytes, List.cons_append, List.cons_append, List.cons.injEq,
    List.cons.injEq, RawVariant.payload]
  by_cases hnone : VariantType.cast raw.objType = .none
  · rw [if_pos hnone, h.unknown hnone]
    refine iff_of_false ?_ fun hregular => hregular.1.2 hnone
    intro heq
    have hlong := congrArg List.length heq.2.2
    have hfloat : (Variant.float 0).payload.length = 4 := rfl
    rw [List.length_append, hfloat, List.nil_append] at hlong
    omega
  · rw [if_neg hnone, h.known hnone, VariantType.value_cast hnone, List.append_cancel_left_eq]
    constructor
    · intro heq
      exact ⟨⟨heq.1.symm, hnone⟩, heq.2.2⟩
    · intro heq
      exact ⟨heq.1.1.symm, rfl, heq.2⟩

theorem length_objectsEncoding (raws : List RawVariant) (h : ∀ raw ∈ raws, raw.Lawful) (index : ℕ) :
    (raws.flatMap RawVariant.bytes).length ≤
      (objectsEncoding index (raws.map RawVariant.object)).length := by
  induction raws generalizing index with
  | nil => exact Nat.le_refl _
  | cons raw raws ih =>
    obtain ⟨hraw, hraws⟩ := List.forall_mem_cons.mp h
    have hrest := ih hraws (index + 1)
    have hpayload : raw.payload.length ≤ raw.object.payload.length := by
      unfold RawVariant.payload
      split
      · exact Nat.zero_le _
      · exact Nat.le_refl _
    simp only [List.flatMap_cons, List.map_cons, objectsEncoding, List.length_append,
      RawVariant.bytes, List.length_cons, Variant.encoding, toBytes_uint8, List.length_nil]
    omega

theorem objectsEncoding_eq_iff (raws : List RawVariant) (h : ∀ raw ∈ raws, raw.Lawful) (index : ℕ) :
    objectsEncoding index (raws.map RawVariant.object) = raws.flatMap RawVariant.bytes ↔
      RawVariant.AllRegular index raws := by
  induction raws generalizing index with
  | nil => exact iff_of_true rfl nofun
  | cons raw raws ih =>
    obtain ⟨hraw, hraws⟩ := List.forall_mem_cons.mp h
    have hlength := length_objectsEncoding raws hraws (index + 1)
    rw [List.map_cons, objectsEncoding, List.flatMap_cons, bytes_eq_iff hraw index hlength,
      ih hraws, RawVariant.allRegular_cons]

/-- Whatever bytes the constructor accepts, they are a count and that many objects, each with
an index and a type, and the list that was read is one that packs and is read back. It packs
to the very bytes that were read exactly when every index is its own and every type known. -/
theorem ofData_pack {data : Bytes} {objs : List Variant} {br : BinaryReader}
    (h : ofData data = some (objs, br)) (executionDelay netId : Int32) :
    ∃ raws : List RawVariant, raws.map RawVariant.object = objs ∧ raws.length ≤ 255 ∧
      (∀ raw ∈ raws, raw.Lawful) ∧
      data.take br.position = UInt8.ofNat raws.length :: raws.flatMap RawVariant.bytes ∧
      ((⟨executionDelay, netId, objs⟩ : VariantList).pack = some (data.take br.position) ↔
        RawVariant.AllRegular 0 raws) ∧
      ∃ pData after, (⟨executionDelay, netId, objs⟩ : VariantList).pack = some pData ∧
        ofData pData = some (objs, after) ∧ after.position = pData.length := by
  have hparses : Parses (do
      let objectCount ← read UInt8
      serializeObjects objectCount.toNat) fun objs bs => ∃ objectCount : UInt8, ∃ cs,
        bs = objectCount :: cs ∧ RawObjects objectCount.toNat objs cs := by
    refine parses_read_bind fun objectCount => ?_
    refine (parses_serializeObjects objectCount.toNat).weaken ?_
    intro objs cs hraws
    exact ⟨objectCount, cs, by rw [toBytes_uint8]; rfl, hraws⟩
  obtain ⟨⟨objectCount, cs, htake, raws, rfl, hlength, rfl, hlawful⟩, -⟩ := parses_mk hparses h
  have hlt := objectCount.toNat_lt
  have hcount : UInt8.ofNat raws.length = objectCount := by
    rw [hlength, UInt8.ofNat_toNat]
  have hfits : ∀ v ∈ raws.map RawVariant.object, v.Fits := by
    intro v hv
    obtain ⟨raw, hraw, rfl⟩ := List.mem_map.mp hv
    exact (hlawful raw hraw).fits
  refine ⟨raws, rfl, by omega, hlawful, by rw [htake, hcount], ?_, ?_⟩
  · rw [pack_eq, htake, Option.some_inj, encoding, toBytes_uint8, List.length_map, hcount,
      ← objectsEncoding_eq_iff raws hlawful 0, List.singleton_append, List.cons.injEq]
    exact and_iff_right rfl
  · have hread := (⟨executionDelay, netId, raws.map RawVariant.object⟩ : VariantList).ofData_encoding
      (by rw [List.length_map]; omega) hfits []
    rw [List.append_nil] at hread
    exact ⟨_, _, pack_eq _, hread, (encoding_length _).symm⟩

/-- Two objects, the first with the index of another and the second of an unknown type. -/
theorem ofData_pack_irregular :
    ∃ raws : List RawVariant, raws.map RawVariant.object = [.unsignedInt 7, .float 0] ∧
      raws.length ≤ 255 ∧ (∀ raw ∈ raws, raw.Lawful) ∧
      ([2, 5, 5, 7, 0, 0, 0, 1, 200, 33] : Bytes).take 9 =
        UInt8.ofNat raws.length :: raws.flatMap RawVariant.bytes ∧
      ((⟨0, -1, [.unsignedInt 7, .float 0]⟩ : VariantList).pack =
          some (([2, 5, 5, 7, 0, 0, 0, 1, 200, 33] : Bytes).take 9) ↔
        RawVariant.AllRegular 0 raws) ∧
      ∃ pData after, (⟨0, -1, [.unsignedInt 7, .float 0]⟩ : VariantList).pack = some pData ∧
        ofData pData = some ([.unsignedInt 7, .float 0], after) ∧
          after.position = pData.length := by
  have haccepted : ofData [2, 5, 5, 7, 0, 0, 0, 1, 200, 33] =
      some ([.unsignedInt 7, .float 0], ⟨[2, 5, 5, 7, 0, 0, 0, 1, 200, 33], 9⟩) := rfl
  exact ofData_pack haccepted 0 (-1)

end VariantList

end GrowServer
