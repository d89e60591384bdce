import GrowServer.ENetWrapper.ENetWrapper

/-!
# PacketManager (Packet/PacketManager.hpp)

How a received packet is taken apart, and what the receiver of a call-function
packet finds in it.
-/

namespace GrowServer
open LittleEndian Memory

namespace TankPacketData

def isExtended (t : TankPacketData) : Bool := t.m_flags &&& 8 != 0

end TankPacketData

/-- `DataToTankData`; the data of an extended packet is not compared with its length,
which is 32 bits wide. -/
def dataToTankData (data : Bytes) (dataLen : UInt32) : Option TankPacketData :=
  if dataLen.toNat < sizeofTankPacketData then none
  else
    let tankData : TankPacketData := Pod.ofBytes (data.take sizeofTankPacketData)
    if ¬ tankData.isExtended then some tankData else some tankData

/-- What follows the type of a received packet, without the zero at the end. -/
def packetBody (packet : Bytes) : Bytes := (packet.drop 4).dropLast

/-- What a receiver is to find in the bytes of a call-function packet: the type, a
zero at the end, and between them a header that says how much data follows it, which
decodes to the objects of the list. -/
structure SelfDescribing (vList : VariantList) (packet : Bytes) : Prop where
  messageType : packet.take 4 = Pod.toBytes NetMessageType.gamePacket.value
  terminated : packet.getLast? = some 0
  header : ∃ m_dataLength,
    dataToTankData (packetBody packet) (UInt32.ofNat (packetBody packet).length) = some
      { m_type := netGamePacketCallFunction
        m_flags := 8
        m_netId := vList.netId
        m_mainData := vList.executionDelay
        m_dataLength } ∧
    m_dataLength.toNat = ((packetBody packet).drop sizeofTankPacketData).length
  objects : ∃ br, VariantList.ofData ((packetBody packet).drop sizeofTankPacketData) =
    some (vList.m_objects, br)

theorem dataToTankData_append (tankData : TankPacketData) (data : Bytes) {dataLen : UInt32}
    (hlong : sizeofTankPacketData ≤ dataLen.toNat) :
    dataToTankData (Pod.toBytes tankData ++ data) dataLen = some tankData := by
  have hheader : (Pod.toBytes tankData).length = sizeofTankPacketData := Pod.length_toBytes _
  rw [dataToTankData, if_neg (Nat.not_lt.mpr hlong), List.take_left' hheader, Pod.ofBytes_toBytes]
  exact ite_self _

theorem wireBytes_parts (packetType : NetMessageType) (payload : Bytes) :
    (wireBytes packetType payload).take 4 = Pod.toBytes packetType.value ∧
      (wireBytes packetType payload).getLast? = some 0 ∧
      packetBody (wireBytes packetType payload) = payload := by
  have htype : (Pod.toBytes packetType.value).length = 4 := Pod.length_toBytes _
  refine ⟨List.take_left' htype, ?_, ?_⟩
  · rw [wireBytes, ← List.append_assoc]
    exact List.getLast?_concat ..
  · rw [packetBody, wireBytes, List.drop_left' htype]
    exact List.dropLast_concat ..

section Sending
variable {peer : ENetPeer} {vList : VariantList}

theorem variantBody_length (vList : VariantList) :
    (Pod.toBytes (variantTankData vList) ++ vList.encoding).length =
      sizeofTankPacketData + vList.getMemoryUsage := by
  have hheader : (Pod.toBytes (variantTankData vList)).length = sizeofTankPacketData :=
    Pod.length_toBytes _
  rw [List.length_append, hheader, vList.encoding_length]

theorem exists_selfDescribing (hcount : vList.m_objects.length ≤ 255)
    (hsize : sizeofTankPacketData + vList.getMemoryUsage < 2 ^ 32) :
    ∃ packet, sendVariantList (some peer) vList = some [(peer, stored packet)] ∧
      SelfDescribing vList packet := by
  obtain ⟨htype, hlast, hbody⟩ :=
    wireBytes_parts .gamePacket (Pod.toBytes (variantTankData vList) ++ vList.encoding)
  have hheader : (Pod.toBytes (variantTankData vList)).length = sizeofTankPacketData :=
    Pod.length_toBytes _
  have husage : vList.getMemoryUsage < 2 ^ 32 := by omega
  have hlong : sizeofTankPacketData ≤
      (UInt32.ofNat (sizeofTankPacketData + vList.getMemoryUsage)).toNat := by
    rw [UInt32.toNat_ofNat_of_lt' hsize]
    omega
  have hread := vList.ofData_encoding hcount (vList.fits_of_getMemoryUsage husage) []
  rw [List.append_nil] at hread
  refine ⟨_, sendVariantList_eq peer vList husage, htype, hlast, ?_, ?_⟩
  · rw [hbody, variantBody_length, dataToTankData_append _ _ hlong, List.drop_left' hheader,
      vList.encoding_length]
    exact ⟨_, rfl, UInt32.toNat_ofNat_of_lt' husage⟩
  · rw [hbody, List.drop_left' hheader]
    exact ⟨_, hread⟩

/-- Where every cell of the packet that is sent was stored, it holds the header and
the list, cut to the length of the header. -/
theorem packetBody_of_sent {packet : Bytes}
    (hsent : sendVariantList (some peer) vList = some [(peer, stored packet)]) :
    packetBody packet = Pod.toBytes (variantTankData vList) ++
      vList.encoding.take (vList.getMemoryUsage % 2 ^ 32) := by
  obtain ⟨tankPacket, htank, hholding⟩ := Option.map_eq_some_iff.mp (sVariantPacket_eq vList)
  rw [sendVariantList, htank, Option.bind_eq_bind, Option.bind_some, hholding,
    sendPacket_holding] at hsent
  have hblock := (Prod.mk.inj (List.cons.inj (Option.some.inj hsent)).1).2
  split at hblock
  · have hpacket : _ = packet := List.map_injective_iff.mpr (Option.some_injective _) hblock
    rw [← hpacket]
    exact (wireBytes_parts .gamePacket _).2.2
  · have hheader : (Pod.toBytes (variantTankData vList)).length = 56 := Pod.length_toBytes _
    have hunset : none ∈ stored packet := by
      rw [← hblock]
      refine List.mem_append_right _ (List.mem_append_left _ (List.mem_replicate.mpr ⟨?_, rfl⟩))
      rw [List.length_append, hheader]
      omega
    exact absurd hunset (none_not_mem_stored packet)

/-- Of a list that the 32 bits of the header cannot hold, less is sent than it takes
to read it, and where only the packet is longer than that, it is taken for a short one. -/
theorem not_selfDescribing (hcount : vList.m_objects.length ≤ 255)
    (hsize : ¬ sizeofTankPacketData + vList.getMemoryUsage < 2 ^ 32) (packet : Bytes)
    (hsent : sendVariantList (some peer) vList = some [(peer, stored packet)]) :
    ¬ SelfDescribing vList packet := by
  have hheader : (Pod.toBytes (variantTankData vList)).length = sizeofTankPacketData :=
    Pod.length_toBytes _
  have hbody := packetBody_of_sent hsent
  intro h
  by_cases husage : vList.getMemoryUsage < 2 ^ 32
  · obtain ⟨m_dataLength, hdata, -⟩ := h.header
    rw [Nat.mod_eq_of_lt husage, ← vList.encoding_length, List.take_length] at hbody
    have hsizeof : sizeofTankPacketData = 56 := rfl
    have hshort : (UInt32.ofNat (sizeofTankPacketData + vList.getMemoryUsage)).toNat <
        sizeofTankPacketData := by
      rw [UInt32.toNat_ofNat']
      omega
    rw [hbody, variantBody_length, dataToTankData, if_pos hshort] at hdata
    cases hdata
  · obtain ⟨br, hread⟩ := h.objects
    have hcut : vList.getMemoryUsage % 2 ^ 32 < 2 ^ 32 := Nat.mod_lt _ (by decide)
    rw [hbody, List.drop_left' hheader] at hread
    have hle := VariantList.usage_le_of_ofData_take hcount hread
    omega

end Sending

/-- A call-function packet describes itself exactly where its header and its list
together are shorter than 2^32 bytes, the lengths being 32 bits wide. -/
theorem sendVariantList_selfDescribing_iff (peer : ENetPeer) (vList : VariantList)
    (hcount : vList.m_objects.length ≤ 255) :
    (∃ packet, sendVariantList (some peer) vList = some [(peer, stored packet)] ∧
      SelfDescribing vList packet) ↔ sizeofTankPacketData + vList.getMemoryUsage < 2 ^ 32 := by
  constructor
  · intro hpacket
    obtain ⟨packet, hsent, hdescribing⟩ := hpacket
    by_contra hsize
    exact not_selfDescribing hcount hsize packet hsent hdescribing
  · exact exists_selfDescribing hcount

def smallList : VariantList := ⟨0, -1, [.string [79, 110], .int (-7)]⟩

theorem sendVariantList_selfDescribing_small :
    (∃ packet, sendVariantList (some 0) smallList = some [(0, stored packet)] ∧
      SelfDescribing smallList packet) ↔
        sizeofTankPacketData + smallList.getMemoryUsage < 2 ^ 32 :=
  sendVariantList_selfDescribing_iff 0 smallList (by decide)

def oneString (length : ℕ) : VariantList := ⟨-1, -1, [.string (List.replicate length 0)]⟩

theorem not_sendVariantList_selfDescribing :
    (oneString (2 ^ 32)).m_objects.length ≤ 255 ∧
      ¬ ∃ packet, sendVariantList (some 0) (oneString (2 ^ 32)) = some [(0, stored packet)] ∧
        SelfDescribing (oneString (2 ^ 32)) packet := by
  have hcount : (oneString (2 ^ 32)).m_objects.length ≤ 255 := by
    rw [oneString, List.length_singleton]
    decide
  have hlarge : ¬ sizeofTankPacketData + (oneString (2 ^ 32)).getMemoryUsage < 2 ^ 32 := by
    have hle := VariantList.getMemoryUsage_le (l := oneString (2 ^ 32)) (List.mem_singleton.mpr rfl)
    rw [Variant.getMemoryUsage, List.length_replicate] at hle
    omega
  refine ⟨hcount, ?_⟩
  intro hpacket
  obtain ⟨packet, hsent, h⟩ := hpacket
  exact not_selfDescribing hcount hlarge packet hsent h

end GrowServer
