import GrowServer.Event.EventPool

/-!
# The network thread (Server/ServerPool.cpp, ServerPool::ServicePoll)

One ENet event handled on one server instance. Players are looked up by the
connect id the event's peer reports at that moment.
-/

namespace GrowServer
open LittleEndian

/-- A received packet; `id` tells packets of equal content apart. -/
structure ENetPacket where
  id : ℕ
  data : Bytes
  deriving DecidableEq, Repr

/-- `ENetEvent`, with `event.peer->connectID` as it reads while the event is handled.
An event of another type carries no peer. -/
inductive ENetEvent where
  | none
  | connect (peer : ENetPeer) (connectID : UInt32)
  | disconnect (peer : ENetPeer) (connectID : UInt32)
  | receive (peer : ENetPeer) (connectID : UInt32) (packet : ENetPacket)
  deriving DecidableEq, Repr

def sizeofPacketType : ℕ := 4

-- the length is 32 bits wide here
def dataToString (data : Bytes) (dataLen : UInt32) : Bytes := data.take (dataLen - 1).toNat

def messageType (packet : ENetPacket) : UInt32 := Pod.ofBytes (packet.data.take sizeofPacketType)

def eventNameOf (data : Bytes) : Bytes :=
  match findFrom data bar.bytes 0 with
  | none => data
  | some pos => data.take pos

def acceptsLength (packet : ENetPacket) : Bool :=
  sizeofPacketType + 1 ≤ packet.data.length && packet.data.length ≤ 0x400

def isText (packet : ENetPacket) : Bool :=
  messageType packet == NetMessageType.genericText.value ||
    messageType packet == NetMessageType.gameMessage.value

def packetText (packet : ENetPacket) : Bytes :=
  dataToString (packet.data.drop sizeofPacketType)
    (UInt32.ofNat (packet.data.length - sizeofPacketType))

def textEvent (instanceId : UInt8) (pAvatar : PlayerPtr) (data : Bytes) : EventData where
  eventName := eventNameOf data
  pAvatar := pAvatar
  pServer := instanceId
  eventData := data
  eventParser := TextParse.parse data

/-- What handling one event does: the pool afterwards, the next free allocation, the
events queued for the worker, the packets sent and the packets destroyed. -/
structure Handled where
  playerPool : PlayerPool
  next : ℕ
  queued : List EventData := []
  sent : List (ENetPeer × ISPacket) := []
  destroyed : List ENetPacket := []

/-- ServerPool.cpp:79-119, where `new` returns the allocation `next`. -/
def handleEvent (instanceId : UInt8) (playerPool : PlayerPool) (next : ℕ) : ENetEvent → Handled
  | .none => { playerPool, next }
  | .connect peer connectID =>
    match playerPool.getPlayer connectID with
    | some _ => { playerPool, next }
    | none =>
      { playerPool := playerPool.newPlayer connectID ⟨next, peer⟩
        next := next + 1
        sent := [(peer, sLoginInformationRequestPacket)] }
  | .disconnect _ connectID =>
    match playerPool.getPlayer connectID with
    | none => { playerPool, next }
    | some _ => { playerPool := playerPool.removePlayer connectID, next }
  | .receive _ connectID packet =>
    match playerPool.getPlayer connectID with
    | none => { playerPool, next, destroyed := [packet] }
    | some pAvatar =>
      if ¬ acceptsLength packet then { playerPool, next, destroyed := [packet] }
      else if isText packet then
        { playerPool, next, queued := [textEvent instanceId pAvatar (packetText packet)] }
      else { playerPool, next }

section Effects
variable (instanceId : UInt8) (playerPool : PlayerPool) (next : ℕ)

theorem handleEvent_connect_none {peer : ENetPeer} {connectID : UInt32}
    (h : playerPool.getPlayer connectID = none) :
    handleEvent instanceId playerPool next (.connect peer connectID) =
      { playerPool := playerPool.newPlayer connectID ⟨next, peer⟩
        next := next + 1
        sent := [(peer, sLoginInformationRequestPacket)] } := by
  simp only [handleEvent, h]

theorem handleEvent_connect_some {peer : ENetPeer} {connectID : UInt32} {player : PlayerPtr}
    (h : playerPool.getPlayer connectID = some player) :
    handleEvent instanceId playerPool next (.connect peer connectID) = { playerPool, next } := by
  simp only [handleEvent, h]

theorem handleEvent_disconnect_none {peer : ENetPeer} {connectID : UInt32}
    (h : playerPool.getPlayer connectID = none) :
    handleEvent instanceId playerPool next (.disconnect peer connectID) = { playerPool, next } := by
  simp only [handleEvent, h]

theorem handleEvent_disconnect_some {peer : ENetPeer} {connectID : UInt32} {player : PlayerPtr}
    (h : playerPool.getPlayer connectID = some player) :
    handleEvent instanceId playerPool next (.disconnect peer connectID) =
      { playerPool := playerPool.removePlayer connectID, next } := by
  simp only [handleEvent, h]

theorem handleEvent_receive (peer : ENetPeer) (connectID : UInt32) (packet : ENetPacket) :
    (handleEvent instanceId playerPool next (.receive peer connectID packet)).playerPool =
        playerPool ∧
      (handleEvent instanceId playerPool next (.receive peer connectID packet)).queued =
        if acceptsLength packet ∧ isText packet then
          (playerPool.getPlayer connectID).toList.map fun pAvatar =>
            textEvent instanceId pAvatar (packetText packet)
        else [] := by
  cases hplayer : playerPool.getPlayer connectID with
  | none => simp [handleEvent, hplayer]
  | some pAvatar =>
    by_cases hlen : acceptsLength packet
    · by_cases htext : isText packet
      · simp [handleEvent, hplayer, hlen, htext]
      · simp [handleEvent, hplayer, hlen, htext]
    · simp [handleEvent, hplayer, hlen]

theorem next_receive (peer : ENetPeer) (connectID : UInt32) (packet : ENetPacket) :
    (handleEvent instanceId playerPool next (.receive peer connectID packet)).next = next := by
  cases hplayer : playerPool.getPlayer connectID with
  | none => simp only [handleEvent, hplayer]
  | some pAvatar =>
    simp only [handleEvent, hplayer]
    split
    · rfl
    · split
      · rfl
      · rfl

theorem destroyed_receive (peer : ENetPeer) (connectID : UInt32) (packet : ENetPacket) :
    (handleEvent instanceId playerPool next (.receive peer connectID packet)).destroyed =
      if acceptsLength packet ∧ (playerPool.getPlayer connectID).isSome then [] else [packet] := by
  cases hplayer : playerPool.getPlayer connectID with
  | none => simp [handleEvent, hplayer]
  | some pAvatar =>
    by_cases hlen : acceptsLength packet
    · by_cases htext : isText packet
      · simp [handleEvent, hplayer, hlen, htext]
      · simp [handleEvent, hplayer, hlen, htext]
    · simp [handleEvent, hplayer, hlen]

theorem mem_queued {event : ENetEvent} {data : EventData}
    (h : data ∈ (handleEvent instanceId playerPool next event).queued) :
    data.pServer = instanceId ∧ ∃ connectID, playerPool.getPlayer connectID = some data.pAvatar ∧
      (handleEvent instanceId playerPool next event).playerPool = playerPool := by
  cases event with
  | none => cases h
  | connect peer connectID =>
    cases hplayer : playerPool.getPlayer connectID with
    | none =>
      rw [handleEvent_connect_none _ _ _ hplayer] at h
      cases h
    | some player =>
      rw [handleEvent_connect_some _ _ _ hplayer] at h
      cases h
  | disconnect peer connectID =>
    cases hplayer : playerPool.getPlayer connectID with
    | none =>
      rw [handleEvent_disconnect_none _ _ _ hplayer] at h
      cases h
    | some player =>
      rw [handleEvent_disconnect_some _ _ _ hplayer] at h
      cases h
  | receive peer connectID packet =>
    obtain ⟨hpool, hqueued⟩ := handleEvent_receive instanceId playerPool next peer connectID packet
    rw [hqueued] at h
    split at h
    · obtain ⟨pAvatar, hmem, rfl⟩ := List.mem_map.mp h
      exact ⟨rfl, connectID, Option.mem_toList.mp hmem, hpool⟩
    · cases h

end Effects

end GrowServer
