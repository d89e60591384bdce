import GrowServer.ENetWrapper.ENetWrapper
import Mathlib.Data.List.AList

/-!
# PlayerPool (Player/PlayerPool.cpp)

The players of one server instance under the connect ids of their peers. The pool
owns its players: `NewPlayer` allocates one, `RemovePlayer` deletes it.
-/

namespace GrowServer

/-- A `Player*`: the allocation it points to, and the peer the player was
constructed with, which never changes. -/
structure PlayerPtr where
  address : ℕ
  m_pPeer : ENetPeer
  deriving DecidableEq, Repr

structure PlayerPool where
  m_players : AList (fun _ : UInt32 => PlayerPtr) := ∅
  deriving DecidableEq

namespace PlayerPool

def newPlayer (this : PlayerPool) (connectId : UInt32) (player : PlayerPtr) : PlayerPool where
  m_players := this.m_players.insert connectId player

def removePlayer (this : PlayerPool) (connectId : UInt32) : PlayerPool where
  m_players := this.m_players.erase connectId

def getPlayer (this : PlayerPool) (connectId : UInt32) : Option PlayerPtr :=
  this.m_players.lookup connectId

def getPlayers (this : PlayerPool) : List PlayerPtr := this.m_players.entries.map Sigma.snd

def getActivePlayers (this : PlayerPool) : ℕ := this.m_players.entries.length

theorem getPlayer_newPlayer (this : PlayerPool) (connectId : UInt32) (player : PlayerPtr) :
    (this.newPlayer connectId player).getPlayer connectId = some player :=
  AList.lookup_insert this.m_players

theorem getPlayer_newPlayer_of_ne (this : PlayerPool) {connectId other : UInt32}
    (player : PlayerPtr) (h : other ≠ connectId) :
    (this.newPlayer connectId player).getPlayer other = this.getPlayer other :=
  AList.lookup_insert_ne h

theorem getPlayer_removePlayer (this : PlayerPool) (connectId : UInt32) :
    (this.removePlayer connectId).getPlayer connectId = none :=
  AList.lookup_erase connectId this.m_players

theorem getPlayer_removePlayer_of_ne (this : PlayerPool) {connectId other : UInt32}
    (h : other ≠ connectId) :
    (this.removePlayer connectId).getPlayer other = this.getPlayer other :=
  AList.lookup_erase_ne h

theorem mem_getPlayers (this : PlayerPool) (player : PlayerPtr) :
    player ∈ this.getPlayers ↔ ∃ connectId, this.getPlayer connectId = some player := by
  unfold getPlayers getPlayer
  constructor
  · intro h
    obtain ⟨⟨connectId, found⟩, hmem, rfl⟩ := List.mem_map.mp h
    exact ⟨connectId, AList.mem_lookup_iff.mpr hmem⟩
  · intro hfiled
    obtain ⟨connectId, h⟩ := hfiled
    exact List.mem_map.mpr ⟨⟨connectId, player⟩, AList.mem_lookup_iff.mp h, rfl⟩

end PlayerPool

end GrowServer
