import GrowServer.Packet.PacketFactory

/-!
# ENetWrapper (ENetWrapper/ENetWrapper.hpp)

The two ways to send a packet: from a packet object, and from a type, a pointer
and a length. ENet hands out packets of unspecified content, so what a call sends
is a block whose cells may never have been stored.
-/

namespace GrowServer
open LittleEndian Memory

abbrev ENetPeer := ℕ

/-- What one call hands to `enet_peer_send`; `none` is a copy outside a block. -/
abbrev Sent := Option (List (ENetPeer × Block))

def enetPacketCreate (dataLength : ℕ) : Block := alloc dataLength

def packetFrame (m_packetType : NetMessageType) (dataLength : ℕ) : Option Block := do
  let packet := enetPacketCreate (5 + dataLength)
  let packet ← memcpy packet 0 (stored (Pod.toBytes m_packetType.value)) 4
  memcpy packet (dataLength + 4) (stored [0]) 1

/-- `SendPacket(ENetPeer*, ISPacket&)` (ENetWrapper.hpp:17-36). -/
def sendPacket (peer : Option ENetPeer) (data : ISPacket) : Sent :=
  match peer with
  | none => some []
  | some peer => do
    let dataLength := data.m_packetLength
    let packet ← packetFrame data.m_packetType dataLength
    let packet ←
      if (data.m_packetType ≠ .serverHello ∧ dataLength > sizeofTankPacketData) ∨
          data.m_packetType = .gameMessage then
        memcpy packet 4 data.m_packetData dataLength
      else some packet
    return [(peer, packet)]

/-- `SendPacket(ENetPeer*, eNetMessageType, const void*, uintmax_t)`
(ENetWrapper.hpp:37-53). -/
def sendPacketData (peer : Option ENetPeer) (packetType : NetMessageType) (pData : Option Block)
    (dataLength : ℕ) : Sent :=
  match peer with
  | none => some []
  | some peer => do
    let packet ← packetFrame packetType dataLength
    let packet ←
      match pData with
      | some pData => memcpy packet 4 pData dataLength
      | none => some packet
    return [(peer, packet)]

def sendText (peer : Option ENetPeer) (data : Bytes) : Sent := do
  sendPacket peer (← sTextPacket data)

def sendVariantList (peer : Option ENetPeer) (vList : VariantList) : Sent := do
  sendPacket peer (← sVariantPacket vList).toISPacket

/-! ### The bytes on the wire -/

def wireBytes (packetType : NetMessageType) (payload : Bytes) : Bytes :=
  Pod.toBytes packetType.value ++ (payload ++ [0])

theorem packetFrame_eq (packetType : NetMessageType) (dataLength : ℕ) :
    packetFrame packetType dataLength =
      some (stored (Pod.toBytes packetType.value) ++ (alloc dataLength ++ stored [0])) := by
  have htype : (stored (Pod.toBytes packetType.value)).length = 4 := by
    rw [stored_length]
    exact Pod.length_toBytes _
  have hsplit : enetPacketCreate (5 + dataLength) = alloc 4 ++ (alloc dataLength ++ alloc 1) := by
    rw [enetPacketCreate, ← alloc_add, ← alloc_add]
    congr 1
    omega
  have hfirst := memcpy_front (alloc 4) (alloc dataLength ++ alloc 1)
    (stored (Pod.toBytes packetType.value)) 4 (alloc_length 4) htype.ge
  have hlast := memcpy_append (stored (Pod.toBytes packetType.value) ++ alloc dataLength) (alloc 1)
    [] (stored [0]) 1 (alloc_length 1) (le_refl 1)
  have hpos : (stored (Pod.toBytes packetType.value) ++ alloc dataLength).length =
      dataLength + 4 := by
    rw [List.length_append, htype, alloc_length, Nat.add_comm]
  rw [List.take_of_length_le htype.le] at hfirst
  rw [hpos, List.append_nil, List.append_nil, List.append_assoc, List.append_assoc] at hlast
  unfold packetFrame
  rw [hsplit]
  simp only [hfirst, Option.bind_eq_bind, Option.bind_some]
  exact hlast

theorem memcpy_frame (packetType : NetMessageType) (payload : Bytes) :
    memcpy (stored (Pod.toBytes packetType.value) ++ (alloc payload.length ++ stored [0])) 4
        (stored payload) payload.length =
      some (stored (wireBytes packetType payload)) := by
  have htype : (stored (Pod.toBytes packetType.value)).length = 4 := by
    rw [stored_length]
    exact Pod.length_toBytes _
  have hcopy := memcpy_append (stored (Pod.toBytes packetType.value)) (alloc payload.length)
    (stored [0]) (stored payload) payload.length (alloc_length _) (stored_length _).ge
  rw [htype, List.take_of_length_le (stored_length _).le] at hcopy
  rw [hcopy, wireBytes, stored_append, stored_append]

theorem sendPacketData_holding (peer : ENetPeer) (packetType : NetMessageType) (payload : Bytes) :
    sendPacketData (some peer) packetType (ISPacket.holding packetType payload).data
        payload.length = some [(peer, stored (wireBytes packetType payload))] := by
  have hcopy := memcpy_frame packetType payload
  unfold sendPacketData
  rw [packetFrame_eq]
  cases payload with
  | nil =>
    rfl
  | cons b payload =>
    show (memcpy _ 4 (stored (b :: payload)) (b :: payload).length).bind _ = _
    rw [hcopy]
    rfl

theorem sendPacket_holding (peer : ENetPeer) (packetType : NetMessageType) (payload : Bytes) :
    sendPacket (some peer) (ISPacket.holding packetType payload) =
      some [(peer,
        if (packetType ≠ .serverHello ∧ payload.length > sizeofTankPacketData) ∨
            packetType = .gameMessage then stored (wireBytes packetType payload)
        else stored (Pod.toBytes packetType.value) ++ (alloc payload.length ++ stored [0]))] := by
  have hcopy := memcpy_frame packetType payload
  unfold sendPacket ISPacket.holding
  simp only [packetFrame_eq, Option.bind_eq_bind, Option.bind_some]
  split
  · rw [hcopy]
    rfl
  · rfl

/-- Both overloads hand ENet the same bytes for the packet: its type, its whole
payload and a zero, all of them stored. -/
def SendersAgree (p : FactoryPacket) : Prop :=
  ∃ packet payload, p.build = some packet ∧ packet.m_packetData = stored payload ∧
    packet.m_packetLength = payload.length ∧
    ∀ peer, sendPacket peer packet =
        sendPacketData peer packet.m_packetType packet.data packet.m_packetLength ∧
      sendPacket peer packet =
        some (peer.toList.map fun peer => (peer, stored (wireBytes packet.m_packetType payload)))

/-- The object overload copies the payload: every packet but one that is a tank
header only. -/
def PayloadCopied : FactoryPacket → Prop
  | .loginInformationRequest => True
  | .text _ => True
  | .tank _ _ => False
  | .variant vList => vList.getMemoryUsage % 2 ^ 32 ≠ 0

theorem sendersAgree_iff_sent (p : FactoryPacket) :
    SendersAgree p ↔
      ∀ peer, sendPacket (some peer) (ISPacket.holding p.packetType p.payload) =
        some [(peer, stored (wireBytes p.packetType p.payload))] := by
  constructor
  · intro hbuilt peer
    obtain ⟨packet, payload, hbuild, hdata, -, hsent⟩ := hbuilt
    rw [p.build_eq] at hbuild
    obtain rfl := Option.some.inj hbuild
    have hpayload : p.payload = payload :=
      List.map_injective_iff.mpr (Option.some_injective _) hdata
    subst hpayload
    exact (hsent (some peer)).2
  · intro hsent
    refine ⟨_, p.payload, p.build_eq, rfl, rfl, fun peer => ?_⟩
    cases peer with
    | none => exact ⟨rfl, rfl⟩
    | some peer =>
      have hdata := sendPacketData_holding peer p.packetType p.payload
      exact ⟨(hsent peer).trans hdata.symm, hsent peer⟩

theorem sent_iff (packetType : NetMessageType) (payload : Bytes) :
    (∀ peer, sendPacket (some peer) (ISPacket.holding packetType payload) =
        some [(peer, stored (wireBytes packetType payload))]) ↔
      (packetType ≠ .serverHello ∧ payload.length > sizeofTankPacketData) ∨
        packetType = .gameMessage ∨ payload = [] := by
  constructor
  · intro h
    by_contra hcopied
    have hfresh : ¬ ((packetType ≠ .serverHello ∧ payload.length > sizeofTankPacketData) ∨
        packetType = .gameMessage) := fun hc => hcopied (by tauto)
    have hne : payload ≠ [] := fun hc => hcopied (Or.inr (Or.inr hc))
    have hsent := (sendPacket_holding 0 packetType payload).symm.trans (h 0)
    rw [if_neg hfresh] at hsent
    obtain ⟨hblock, -⟩ := List.cons.inj (Option.some.inj hsent)
    have hunset : none ∈ stored (Pod.toBytes packetType.value) ++
        (alloc payload.length ++ stored [0]) := by
      have hmem : none ∈ alloc payload.length :=
        List.mem_replicate.mpr ⟨fun hlen => hne (List.eq_nil_of_length_eq_zero hlen), rfl⟩
      exact List.mem_append_right _ (List.mem_append_left _ hmem)
    rw [(Prod.mk.inj hblock).2] at hunset
    exact none_not_mem_stored _ hunset
  · intro h peer
    rw [sendPacket_holding]
    split
    · rfl
    · rename_i hfresh
      have hnil : payload = [] := by tauto
      rw [hnil]
      rfl

/-- The two overloads put the same bytes on the wire for exactly the packets whose
payload the object overload copies. -/
theorem sendersAgree_iff (p : FactoryPacket) : SendersAgree p ↔ PayloadCopied p := by
  rw [sendersAgree_iff_sent, sent_iff]
  cases p with
  | loginInformationRequest => exact iff_of_true (Or.inr (Or.inr rfl)) trivial
  | text data => exact iff_of_true (Or.inr (Or.inl rfl)) trivial
  | tank tankData h =>
    have hlen : (Pod.toBytes tankData).length = 56 := Pod.length_toBytes _
    have hsize : sizeofTankPacketData = 56 := rfl
    refine iff_of_false ?_ not_false
    show ¬ ((_ ∧ (Pod.toBytes tankData).length > _) ∨ _ ∨ Pod.toBytes tankData = [])
    intro hcase
    rcases hcase with ⟨-, hlong⟩ | hmessage | hnil
    · omega
    · cases hmessage
    · rw [hnil] at hlen
      cases hlen
  | variant vList =>
    have hheader : (Pod.toBytes (variantTankData vList)).length = 56 := Pod.length_toBytes _
    have hsize : sizeofTankPacketData = 56 := rfl
    have hle : vList.getMemoryUsage % 2 ^ 32 ≤ vList.encoding.length := by
      rw [vList.encoding_length]
      exact Nat.mod_le _ _
    have hlen : (FactoryPacket.variant vList).payload.length =
        56 + vList.getMemoryUsage % 2 ^ 32 := by
      simp only [FactoryPacket.payload, List.length_append, hheader, List.length_take]
      omega
    constructor
    · intro hcase
      rcases hcase with ⟨-, hlong⟩ | hmessage | hnil
      · show vList.getMemoryUsage % 2 ^ 32 ≠ 0
        omega
      · cases hmessage
      · rw [hnil] at hlen
        simp only [List.length_nil] at hlen
        omega
    · intro h
      have hpos : vList.getMemoryUsage % 2 ^ 32 ≠ 0 := h
      exact Or.inl ⟨nofun, by omega⟩

theorem not_sendersAgree_tank : ¬ SendersAgree (.tank {} rfl) := by
  intro h
  have hsent := (sendersAgree_iff_sent _).mp h 0
  rw [sendPacket_holding] at hsent
  revert hsent
  decide

theorem sendText_eq (peer : ENetPeer) (data : Bytes) :
    sendText (some peer) data = some [(peer, stored (wireBytes .gameMessage data))] := by
  rw [sendText, sTextPacket_eq]
  exact (sent_iff .gameMessage data).mpr (Or.inr (Or.inl rfl)) peer

theorem sendVariantList_eq (peer : ENetPeer) (vList : VariantList)
    (h : vList.getMemoryUsage < 2 ^ 32) :
    sendVariantList (some peer) vList = some [(peer, stored
      (wireBytes .gamePacket (Pod.toBytes (variantTankData vList) ++ vList.encoding)))] := by
  obtain ⟨packet, hpacket, hholding⟩ := Option.map_eq_some_iff.mp (sVariantPacket_eq vList)
  rw [Nat.mod_eq_of_lt h, ← vList.encoding_length, List.take_length] at hholding
  have hheader : (Pod.toBytes (variantTankData vList)).length = 56 := Pod.length_toBytes _
  have hsize : sizeofTankPacketData = 56 := rfl
  have hcount : vList.encoding.length ≠ 0 := by
    rw [VariantList.encoding, List.length_append]
    have hone : (Pod.toBytes (UInt8.ofNat vList.m_objects.length)).length = 1 :=
      Pod.length_toBytes _
    omega
  have hlong : (Pod.toBytes (variantTankData vList) ++ vList.encoding).length >
      sizeofTankPacketData := by
    rw [List.length_append]
    omega
  unfold sendVariantList
  rw [hpacket, Option.bind_eq_bind, Option.bind_some, hholding]
  exact (sent_iff .gamePacket _).mpr (Or.inl ⟨by decide, hlong⟩) peer

end GrowServer
