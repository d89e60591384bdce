import GrowServer.Packet.PacketManager
import GrowServer.Server.ServicePoll

/-!
# Text packets from end to end (Packet/PacketManager.hpp, Server/ServerPool.cpp)

A text is built with `Add`, sent as a game message, and taken apart by the receiver:
the type, the text without the zero at the end, the lines.
-/

namespace GrowServer
open LittleEndian Memory

theorem isText_wireBytes (id : ℕ) (data : Bytes) : isText ⟨id, wireBytes .gameMessage data⟩ := by
  have htype : (Pod.toBytes NetMessageType.gameMessage.value).length = 4 := Pod.length_toBytes _
  have hmessage : messageType ⟨id, wireBytes .gameMessage data⟩ =
      NetMessageType.gameMessage.value := by
    rw [messageType, wireBytes]
    show Pod.ofBytes ((Pod.toBytes NetMessageType.gameMessage.value ++ (data ++ [0])).take 4) = _
    rw [List.take_left' htype, Pod.ofBytes_toBytes]
  rw [isText, hmessage]
  rfl

/-- Of the text, it finds as much as the 32 bits of a length count. -/
theorem packetText_wireBytes (id : ℕ) (data : Bytes) :
    packetText ⟨id, wireBytes .gameMessage data⟩ = data.take (data.length % 2 ^ 32) := by
  have htype : (Pod.toBytes NetMessageType.gameMessage.value).length = 4 := Pod.length_toBytes _
  have hlength : (wireBytes .gameMessage data).length - 4 = data.length + 1 := by
    simp only [wireBytes, List.length_append, htype, List.length_singleton]
    omega
  have hkept : (UInt32.ofNat (data.length + 1) - 1).toNat = data.length % 2 ^ 32 := by
    have hone : (1 : UInt32).toNat = 1 := rfl
    rw [UInt32.toNat_sub, UInt32.toNat_ofNat', hone]
    omega
  have hle : data.length % 2 ^ 32 ≤ data.length := Nat.mod_le _ _
  show ((wireBytes .gameMessage data).drop 4).take
    (UInt32.ofNat ((wireBytes .gameMessage data).length - 4) - 1).toNat = _
  rw [hlength, hkept, wireBytes, List.drop_left' htype, List.take_append_of_le_length hle]

theorem packetText_of_short (id : ℕ) {data : Bytes} (h : data.length < 2 ^ 32) :
    packetText ⟨id, wireBytes .gameMessage data⟩ = data := by
  rw [packetText_wireBytes, Nat.mod_eq_of_lt h, List.take_length]

theorem packet_of_sent {peer : ENetPeer} {data packet : Bytes}
    (hsent : sendText (some peer) data = some [(peer, stored packet)]) :
    packet = wireBytes .gameMessage data := by
  rw [sendText_eq] at hsent
  have hblock := (Prod.mk.inj (List.cons.inj (Option.some.inj hsent)).1).2
  exact (List.map_injective_iff.mpr (Option.some_injective _) hblock).symm

theorem packetText_of_long (id : ℕ) {peer : ENetPeer} {data packet : Bytes}
    (h : ¬ data.length < 2 ^ 32) (hsent : sendText (some peer) data = some [(peer, stored packet)]) :
    packetText ⟨id, packet⟩ ≠ data := by
  rw [packet_of_sent hsent, packetText_wireBytes]
  intro hreceived
  have hcut := congrArg List.length hreceived
  have hmod : data.length % 2 ^ 32 < 2 ^ 32 := Nat.mod_lt _ (by decide)
  rw [List.length_take] at hcut
  omega

/-- What was added, sent and received is the text that was built; its lines are the
ones that were added exactly when each of them is clean; and where they are read as
keys and values, looking up a key finds what was first added under it. -/
theorem textPacket_roundtrip (peer : ENetPeer) (id : ℕ) (entries : List Entry)
    (h : (TextParse.ofEntries entries).getAsString.length < 2 ^ 32) :
    ∃ packet, sendText (some peer) (TextParse.ofEntries entries).getAsString =
        some [(peer, stored packet)] ∧
      isText ⟨id, packet⟩ ∧
      packetText ⟨id, packet⟩ = (TextParse.ofEntries entries).getAsString ∧
      ((TextParse.parse (packetText ⟨id, packet⟩)).m_data =
          (TextParse.ofEntries entries).m_data ↔
        ∀ line ∈ (TextParse.ofEntries entries).m_data, TextParse.CleanLine line) ∧
      ((∀ line ∈ (TextParse.ofEntries entries).m_data, TextParse.CleanLine line) →
        (∀ entry ∈ entries, entry.Keyed) →
        ∀ key entry, (entries.find? fun entry => entry.key = key) = some entry →
          (TextParse.parse (packetText ⟨id, packet⟩)).get key = .ok entry.value) := by
  have hreceived := packetText_of_short id h
  have hlines := TextParse.parse_getAsString_iff (TextParse.ofEntries entries)
  refine ⟨_, sendText_eq peer _, isText_wireBytes id _, hreceived, ?_, ?_⟩
  · rw [hreceived]
    exact hlines
  · intro hclean hkeyed key entry hfirst
    have hvalue := TextParse.lookup_lines hkeyed hfirst
    rw [hreceived, TextParse.get_eq_getLoop, hlines.mpr hclean, TextParse.ofEntries_m_data, ← hvalue]
    exact (TextParse.getLoop_eq_lookup_iff key 1 _).mpr (TextParse.everyLineKeyed_lines hkeyed key)

def playSfx : List Entry :=
  [⟨ascii "action", ascii "play_sfx", bar.bytes⟩, ⟨ascii "delayMS", ascii "0", bar.bytes⟩]

theorem textPacket_roundtrip_playSfx :
    ∃ packet, sendText (some 0) (TextParse.ofEntries playSfx).getAsString =
        some [(0, stored packet)] ∧
      isText ⟨0, packet⟩ ∧
      packetText ⟨0, packet⟩ = (TextParse.ofEntries playSfx).getAsString ∧
      ((TextParse.parse (packetText ⟨0, packet⟩)).m_data = (TextParse.ofEntries playSfx).m_data ↔
        ∀ line ∈ (TextParse.ofEntries playSfx).m_data, TextParse.CleanLine line) ∧
      ((∀ line ∈ (TextParse.ofEntries playSfx).m_data, TextParse.CleanLine line) →
        (∀ entry ∈ playSfx, entry.Keyed) →
        ∀ key entry, (playSfx.find? fun entry => entry.key = key) = some entry →
          (TextParse.parse (packetText ⟨0, packet⟩)).get key = .ok entry.value) :=
  textPacket_roundtrip 0 0 playSfx (by decide)

def oneLine (length : ℕ) : List Entry := [⟨[], List.replicate length 0, bar.bytes⟩]

theorem oneLine_length (length : ℕ) :
    (TextParse.ofEntries (oneLine length)).getAsString.length = length + 2 := by
  have hbar : bar.bytes.length = 1 := rfl
  rw [TextParse.getAsString_eq, TextParse.ofEntries_m_data, oneLine]
  simp only [List.map_cons, List.map_nil, List.flatMap_cons, List.flatMap_nil, Entry.line,
    List.nil_append, List.append_nil, List.length_append, List.length_replicate,
    List.length_singleton, hbar]
  omega

theorem not_textPacket_roundtrip :
    ¬ ∃ packet, sendText (some 0) (TextParse.ofEntries (oneLine (2 ^ 32))).getAsString =
        some [(0, stored packet)] ∧
      packetText ⟨0, packet⟩ = (TextParse.ofEntries (oneLine (2 ^ 32))).getAsString := by
  intro h
  obtain ⟨packet, hsent, hreceived⟩ := h
  refine packetText_of_long 0 ?_ hsent hreceived
  rw [oneLine_length]
  omega

end GrowServer
