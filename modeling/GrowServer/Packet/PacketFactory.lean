import GrowServer.Lib.Block
import GrowServer.Packet.VariantList

/-!
# Packets (Packet/GameUpdatePacket.hpp, Packet/PacketFactory.hpp)

The objects the packet factory builds. A packet's `std::vector` is used through
`reserve` and `data()` only, so it is modelled by its storage. A constructor that
would copy beyond a block has no result.
-/

namespace GrowServer
open LittleEndian Memory

inductive NetMessageType where
  | unknown
  | serverHello
  | genericText
  | gameMessage
  | gamePacket
  | error
  | track
  | clientLogRequest
  | clientLogResponse
  deriving DecidableEq, Repr

def NetMessageType.value : NetMessageType → UInt32
  | unknown => 0
  | serverHello => 1
  | genericText => 2
  | gameMessage => 3
  | gamePacket => 4
  | error => 5
  | track => 6
  | clientLogRequest => 7
  | clientLogResponse => 8

def netGamePacketState : UInt8 := 0
def netGamePacketCallFunction : UInt8 := 1

/-- The packed header of a game packet, without padding. A union goes by its first
member; `m_delay` is `m_mainData`. -/
structure TankPacketData where
  m_type : UInt8 := netGamePacketState
  m_objectType : UInt8 := 0
  m_jumpCount : UInt8 := 0
  m_animationType : UInt8 := 0
  m_netId : Int32 := 0
  m_item : Int32 := 0
  m_flags : UInt32 := 0
  m_floatVariable : FloatBits := 0
  m_mainData : Int32 := 0
  m_vectorX : FloatBits := 0
  m_vectorY : FloatBits := 0
  m_vectorX2 : FloatBits := 0
  m_vectorY2 : FloatBits := 0
  m_particleRotation : FloatBits := 0
  m_intX : UInt32 := 0
  m_intY : UInt32 := 0
  m_dataLength : UInt32 := 0
  deriving DecidableEq, Repr

namespace TankPacketData

abbrev Fields :=
  UInt8 × UInt8 × UInt8 × UInt8 × Int32 × Int32 × UInt32 × FloatBits × Int32 × FloatBits ×
    FloatBits × FloatBits × FloatBits × FloatBits × UInt32 × UInt32 × UInt32

def toFields (t : TankPacketData) : Fields :=
  (t.m_type, t.m_objectType, t.m_jumpCount, t.m_animationType, t.m_netId, t.m_item, t.m_flags,
    t.m_floatVariable, t.m_mainData, t.m_vectorX, t.m_vectorY, t.m_vectorX2, t.m_vectorY2,
    t.m_particleRotation, t.m_intX, t.m_intY, t.m_dataLength)

def ofFields : Fields → TankPacketData
  | (m_type, m_objectType, m_jumpCount, m_animationType, m_netId, m_item, m_flags,
      m_floatVariable, m_mainData, m_vectorX, m_vectorY, m_vectorX2, m_vectorY2,
      m_particleRotation, m_intX, m_intY, m_dataLength) =>
    { m_type, m_objectType, m_jumpCount, m_animationType, m_netId, m_item, m_flags,
      m_floatVariable, m_mainData, m_vectorX, m_vectorY, m_vectorX2, m_vectorY2,
      m_particleRotation, m_intX, m_intY, m_dataLength }

instance : Pod TankPacketData :=
  Pod.ofEquiv (α := Fields) toFields ofFields (fun _ => rfl) (fun _ => rfl)

-- `m_flags.bExtended = true`, the fourth bit from the low end
def setExtended (t : TankPacketData) : TankPacketData := { t with m_flags := t.m_flags ||| 8 }

end TankPacketData

def sizeofTankPacketData : ℕ := Pod.size TankPacketData

example : sizeofTankPacketData = 56 := rfl

def reserve (storage : Block) (n : ℕ) : Block :=
  if storage.length < n then alloc n else storage

structure ISPacket where
  m_packetType : NetMessageType
  m_packetData : Block := []
  m_packetLength : ℕ := 0
  deriving DecidableEq

def ISPacket.data (packet : ISPacket) : Option Block :=
  if packet.m_packetData.isEmpty then none else some packet.m_packetData

structure STankPacket extends ISPacket where
  m_tankData : TankPacketData
  m_data : Block := []

namespace STankPacket

def pack (packet : STankPacket) : Option STankPacket := do
  let dataLength := packet.m_tankData.m_dataLength.toNat
  let m_packetData := reserve packet.m_packetData (sizeofTankPacketData + dataLength)
  let m_packetData ←
    memcpy m_packetData 0 (stored (Pod.toBytes packet.m_tankData)) sizeofTankPacketData
  let m_packetData ←
    if dataLength > 0 then memcpy m_packetData sizeofTankPacketData packet.m_data dataLength
    else some m_packetData
  return { packet with m_packetData, m_packetLength := sizeofTankPacketData + dataLength }

def create (tankData : TankPacketData) : Option STankPacket :=
  pack { m_packetType := .gamePacket, m_tankData := tankData }

end STankPacket

-- the header the constructor of `SVariantPacket` fills in; `m_dataLength` has 32 bits
def variantTankData (vList : VariantList) : TankPacketData :=
  { TankPacketData.setExtended {} with
    m_type := netGamePacketCallFunction
    m_netId := vList.netId
    m_mainData := vList.executionDelay
    m_dataLength := UInt32.ofNat vList.getMemoryUsage }

def sVariantPacket (vList : VariantList) : Option STankPacket := do
  let packet ← STankPacket.create {}
  let m_tankData := variantTankData vList
  let packedData ← vList.pack
  let dataLength := m_tankData.m_dataLength.toNat
  let m_data ← memcpy (reserve packet.m_data dataLength) 0 (stored packedData) dataLength
  STankPacket.pack { packet with m_tankData, m_data }

def sLoginInformationRequestPacket : ISPacket := { m_packetType := .serverHello }

def sTextPacket (data : Bytes) : Option ISPacket := do
  let m_packetData ← memcpy (reserve [] data.length) 0 (stored data) data.length
  return { m_packetType := .gameMessage, m_packetData, m_packetLength := data.length }

inductive FactoryPacket where
  | loginInformationRequest
  | text (data : Bytes)
  | tank (tankData : TankPacketData) (h : tankData.m_dataLength = 0)
  | variant (vList : VariantList)

def FactoryPacket.build : FactoryPacket → Option ISPacket
  | loginInformationRequest => some sLoginInformationRequestPacket
  | text data => sTextPacket data
  | tank tankData _ => (STankPacket.create tankData).map STankPacket.toISPacket
  | variant vList => (sVariantPacket vList).map STankPacket.toISPacket

/-- A packet whose storage holds exactly `payload`. -/
def ISPacket.holding (m_packetType : NetMessageType) (payload : Bytes) : ISPacket :=
  ⟨m_packetType, stored payload, payload.length⟩

theorem reserve_length_of_le (storage : Block) (n : ℕ) (h : storage.length ≤ n) :
    (reserve storage n).length = n := by
  unfold reserve
  split
  · exact alloc_length n
  · omega

theorem memcpy_reserve (storage : Block) (bs : Bytes) (n : ℕ) (hstorage : storage.length ≤ n)
    (hn : n ≤ bs.length) :
    memcpy (reserve storage n) 0 (stored bs) n = some (stored (bs.take n)) := by
  have hlen := reserve_length_of_le storage n hstorage
  have h := memcpy_front (reserve storage n) [] (stored bs) n hlen (by rwa [stored_length])
  rwa [List.append_nil, List.append_nil, stored_take] at h

namespace STankPacket

theorem pack_eq (packet : STankPacket) (data : Bytes) (hdata : packet.m_data = stored data)
    (hlen : packet.m_tankData.m_dataLength.toNat = data.length)
    (hstorage : packet.m_packetData.length ≤ sizeofTankPacketData + data.length) :
    packet.pack = some { packet with
      m_packetData := stored (Pod.toBytes packet.m_tankData ++ data)
      m_packetLength := sizeofTankPacketData + data.length } := by
  have hheader : (stored (Pod.toBytes packet.m_tankData)).length = sizeofTankPacketData := by
    rw [stored_length]
    exact Pod.length_toBytes _
  have hsize := reserve_length_of_le _ _ hstorage
  obtain ⟨front, back, hsplit, hfront⟩ : ∃ front back,
      reserve packet.m_packetData (sizeofTankPacketData + data.length) = front ++ back ∧
        front.length = sizeofTankPacketData :=
    ⟨_, _, (List.take_append_drop sizeofTankPacketData _).symm,
      List.length_take_of_le (by omega)⟩
  have hback : back.length = data.length := by
    rw [hsplit, List.length_append] at hsize
    omega
  have hfirst := memcpy_front front back (stored (Pod.toBytes packet.m_tankData))
    sizeofTankPacketData hfront hheader.ge
  rw [List.take_of_length_le hheader.le] at hfirst
  unfold pack
  simp only [hlen, hsplit, hdata, hfirst, Option.bind_eq_bind, Option.bind_some]
  by_cases hpos : data.length > 0
  · have hsecond := memcpy_append (stored (Pod.toBytes packet.m_tankData)) back [] (stored data)
      data.length hback (stored_length data).ge
    rw [hheader, List.append_nil, List.append_nil, List.take_of_length_le (stored_length data).le,
      ← stored_append] at hsecond
    rw [if_pos hpos, hsecond]
    rfl
  · have hnil : data = [] := List.eq_nil_of_length_eq_zero (by omega)
    have hbacknil : back = [] := List.eq_nil_of_length_eq_zero (by omega)
    rw [if_neg hpos, hnil, hbacknil, List.append_nil, List.append_nil]
    rfl

theorem create_eq (tankData : TankPacketData) (h : tankData.m_dataLength = 0) :
    create tankData = some
      { m_packetType := .gamePacket, m_tankData := tankData
        m_packetData := stored (Pod.toBytes tankData)
        m_packetLength := sizeofTankPacketData } := by
  have hpack := pack_eq { m_packetType := .gamePacket, m_tankData := tankData } [] rfl
    (by rw [h]; rfl) (Nat.zero_le _)
  rwa [List.append_nil] at hpack

end STankPacket

/-- A call-function packet is its header and the packed list, cut to the 32-bit
length of the header. -/
theorem sVariantPacket_eq (vList : VariantList) :
    (sVariantPacket vList).map STankPacket.toISPacket =
      some (ISPacket.holding .gamePacket (Pod.toBytes (variantTankData vList) ++
        vList.encoding.take (vList.getMemoryUsage % 2 ^ 32))) := by
  have hlen : (variantTankData vList).m_dataLength.toNat = vList.getMemoryUsage % 2 ^ 32 :=
    UInt32.toNat_ofNat'
  have hle : vList.getMemoryUsage % 2 ^ 32 ≤ vList.encoding.length := by
    rw [vList.encoding_length]
    exact Nat.mod_le _ _
  have htake : (vList.encoding.take (vList.getMemoryUsage % 2 ^ 32)).length =
      vList.getMemoryUsage % 2 ^ 32 := List.length_take_of_le hle
  have hdata := memcpy_reserve [] vList.encoding (vList.getMemoryUsage % 2 ^ 32) (Nat.zero_le _) hle
  unfold sVariantPacket
  rw [STankPacket.create_eq {} rfl, vList.pack_eq]
  simp only [Option.bind_eq_bind, Option.bind_some, hlen, hdata]
  have hheader (tankData : TankPacketData) :
      (Pod.toBytes tankData).length = sizeofTankPacketData := Pod.length_toBytes _
  rw [STankPacket.pack_eq _ (vList.encoding.take (vList.getMemoryUsage % 2 ^ 32)) rfl
    (by rw [htake]; exact hlen)]
  · simp only [Option.map_some, ISPacket.holding, List.length_append, hheader]
  · show (stored (Pod.toBytes ({} : TankPacketData))).length ≤ _
    rw [stored_length, hheader]
    exact Nat.le_add_right _ _

theorem sTextPacket_eq (data : Bytes) :
    sTextPacket data = some (ISPacket.holding .gameMessage data) := by
  have hcopy := memcpy_reserve [] data data.length (Nat.zero_le _) le_rfl
  rw [List.take_length] at hcopy
  unfold sTextPacket
  rw [hcopy]
  rfl

theorem tank_eq (tankData : TankPacketData) (h : tankData.m_dataLength = 0) :
    (STankPacket.create tankData).map STankPacket.toISPacket =
      some (ISPacket.holding .gamePacket (Pod.toBytes tankData)) := by
  have hlen : (Pod.toBytes tankData).length = sizeofTankPacketData := Pod.length_toBytes _
  rw [STankPacket.create_eq tankData h, Option.map_some, ISPacket.holding, hlen]

namespace FactoryPacket

def packetType : FactoryPacket → NetMessageType
  | loginInformationRequest => .serverHello
  | text _ => .gameMessage
  | tank _ _ => .gamePacket
  | variant _ => .gamePacket

def payload : FactoryPacket → Bytes
  | loginInformationRequest => []
  | text data => data
  | tank tankData _ => Pod.toBytes tankData
  | variant vList =>
    Pod.toBytes (variantTankData vList) ++ vList.encoding.take (vList.getMemoryUsage % 2 ^ 32)

theorem build_eq (p : FactoryPacket) :
    p.build = some (ISPacket.holding p.packetType p.payload) := by
  cases p with
  | loginInformationRequest => rfl
  | text data => exact sTextPacket_eq data
  | tank tankData h => exact tank_eq tankData h
  | variant vList => exact sVariantPacket_eq vList

end FactoryPacket

end GrowServer
