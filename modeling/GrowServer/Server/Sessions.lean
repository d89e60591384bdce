import GrowServer.Server.ServicePoll

/-!
# Sessions of one server instance (Server/ServerPool.cpp, Player/PlayerPool.cpp)

The pool of an instance beside ENet's own view of it. ENet promises that a peer
connects, is received from and disconnects, in this order; that its connect id does
not change in between; and that the id reads 0 once the peer has been reset, which
it has when DISCONNECT is handed out. Nothing keeps two peers from picking one id.
-/

namespace GrowServer
open RunLogic

/-- The pool, the allocations made so far, and the connected peers with the connect
ids they picked. -/
structure Session where
  playerPool : PlayerPool := {}
  next : ℕ := 0
  connected : AList (fun _ : ENetPeer => UInt32) := ∅

namespace Session
variable (instanceId : UInt8)

def handled (s : Session) (event : ENetEvent) : Handled :=
  handleEvent instanceId s.playerPool s.next event

def step (s : Session) (event : ENetEvent) : Session where
  playerPool := (s.handled instanceId event).playerPool
  next := (s.handled instanceId event).next
  connected :=
    match event with
    | .connect peer connectID => s.connected.insert peer connectID
    | .disconnect peer _ => s.connected.erase peer
    | _ => s.connected

/-- What ENet promises of the next event. -/
def Disciplined (s : Session) : ENetEvent → Prop
  | .none => True
  | .connect peer _ => s.connected.lookup peer = none
  | .receive peer connectID _ => s.connected.lookup peer = some connectID
  | .disconnect peer connectID => (s.connected.lookup peer).isSome ∧ connectID = 0

instance (s : Session) (event : ENetEvent) : Decidable (s.Disciplined event) := by
  unfold Disciplined
  split <;> infer_instance

def peers (s : Session) : List ENetPeer := s.playerPool.getPlayers.map PlayerPtr.m_pPeer

/-- Behind the event the pool has one player for each connected peer and no other, and
a received text is queued with the player of the peer it came from. A packet of
another type or size is not for the queue. -/
structure Mirrors (s : Session) (event : ENetEvent) : Prop where
  players : (s.step instanceId event).peers.Perm (s.step instanceId event).connected.keys
  active : (s.step instanceId event).playerPool.getActivePlayers =
    (s.step instanceId event).connected.keys.length
  own : ∀ peer connectID packet, event = .receive peer connectID packet →
    acceptsLength packet → isText packet → ∃ player,
      player ∈ s.playerPool.getPlayers ∧ player.m_pPeer = peer ∧
        (s.handled instanceId event).queued = [textEvent instanceId player (packetText packet)]

def DistinctIds (s : Session) : ENetEvent → Prop
  | .connect _ connectID => ∀ peer, s.connected.lookup peer ≠ some connectID
  | .disconnect peer _ => s.connected.lookup peer = some 0
  | _ => True

/-- The players stand under the connect ids of their peers, and every connected peer
has one. -/
structure Bound (s : Session) : Prop where
  pool_connected : ∀ {connectID player}, s.playerPool.getPlayer connectID = some player →
    s.connected.lookup player.m_pPeer = some connectID
  connected_pool : ∀ {peer connectID}, s.connected.lookup peer = some connectID →
    ∃ player, s.playerPool.getPlayer connectID = some player ∧ player.m_pPeer = peer

theorem bound_start : Bound {} where
  pool_connected h := by cases h
  connected_pool h := by cases h

theorem mem_peers (s : Session) (peer : ENetPeer) :
    peer ∈ s.peers ↔
      ∃ connectID player, s.playerPool.getPlayer connectID = some player ∧
        player.m_pPeer = peer := by
  unfold peers
  rw [List.mem_map]
  constructor
  · intro h
    obtain ⟨player, hmem, hpeer⟩ := h
    obtain ⟨connectID, hplayer⟩ := (PlayerPool.mem_getPlayers _ _).mp hmem
    exact ⟨connectID, player, hplayer, hpeer⟩
  · intro h
    obtain ⟨connectID, player, hplayer, hpeer⟩ := h
    exact ⟨player, (PlayerPool.mem_getPlayers _ _).mpr ⟨connectID, hplayer⟩, hpeer⟩

theorem mem_connected (s : Session) (peer : ENetPeer) :
    peer ∈ s.connected.keys ↔ ∃ connectID, s.connected.lookup peer = some connectID := by
  rw [← AList.mem_keys, ← AList.lookup_isSome, Option.isSome_iff_exists]

namespace Bound

theorem peers_nodup {s : Session} (h : s.Bound) : s.peers.Nodup := by
  have hentries : s.playerPool.m_players.entries.Nodup := s.playerPool.m_players.nodupKeys.nodup
  unfold peers PlayerPool.getPlayers
  rw [List.map_map]
  refine hentries.map_on ?_
  intro entry hentry other hother hpeer
  have hfirst := h.pool_connected (AList.mem_lookup_iff.mpr hentry)
  have hsecond := h.pool_connected (AList.mem_lookup_iff.mpr hother)
  have hkey : some entry.1 = some other.1 := by
    rw [← hfirst, ← hsecond]
    exact congrArg s.connected.lookup hpeer
  have hvalue := AList.mem_lookup_iff.mpr hentry
  rw [Option.some.inj hkey] at hvalue
  have hplayer : entry.2 = other.2 :=
    Option.some.inj (hvalue.symm.trans (AList.mem_lookup_iff.mpr hother))
  obtain ⟨key, player⟩ := entry
  obtain ⟨key', player'⟩ := other
  obtain rfl : key = key' := Option.some.inj hkey
  obtain rfl : player = player' := hplayer
  rfl

theorem perm {s : Session} (h : s.Bound) : s.peers.Perm s.connected.keys := by
  rw [List.perm_ext_iff_of_nodup h.peers_nodup s.connected.keys_nodup]
  intro peer
  rw [mem_peers, mem_connected]
  constructor
  · intro hpeer
    obtain ⟨connectID, player, hplayer, rfl⟩ := hpeer
    exact ⟨connectID, h.pool_connected hplayer⟩
  · intro hpeer
    obtain ⟨connectID, hconnected⟩ := hpeer
    obtain ⟨player, hplayer, hbound⟩ := h.connected_pool hconnected
    exact ⟨connectID, player, hplayer, hbound⟩

theorem active {s : Session} (h : s.Bound) :
    s.playerPool.getActivePlayers = s.connected.keys.length := by
  rw [← h.perm.length_eq, peers, PlayerPool.getPlayers, List.length_map, List.length_map]
  rfl

theorem connect {s : Session} (h : s.Bound) {peer : ENetPeer} {connectID : UInt32}
    (hnew : s.connected.lookup peer = none) (hid : s.DistinctIds (.connect peer connectID)) :
    (s.step instanceId (.connect peer connectID)).Bound := by
  have hnone : s.playerPool.getPlayer connectID = none := by
    cases hplayer : s.playerPool.getPlayer connectID with
    | none => rfl
    | some player => exact absurd (h.pool_connected hplayer) (hid player.m_pPeer)
  have hstep : s.step instanceId (.connect peer connectID) =
      ⟨s.playerPool.newPlayer connectID ⟨s.next, peer⟩, s.next + 1,
        s.connected.insert peer connectID⟩ := by
    simp only [step, handled, handleEvent_connect_none _ _ _ hnone]
  rw [hstep]
  constructor
  · intro other player hplayer
    by_cases hother : other = connectID
    · subst hother
      rw [PlayerPool.getPlayer_newPlayer] at hplayer
      obtain rfl := Option.some.inj hplayer
      exact AList.lookup_insert _
    · rw [PlayerPool.getPlayer_newPlayer_of_ne _ _ hother] at hplayer
      have hconnected := h.pool_connected hplayer
      have hpeer : player.m_pPeer ≠ peer := by
        intro heq
        rw [heq, hnew] at hconnected
        cases hconnected
      rw [AList.lookup_insert_ne hpeer]
      exact hconnected
  · intro other otherID hconnected
    by_cases hother : other = peer
    · subst hother
      rw [AList.lookup_insert] at hconnected
      obtain rfl := Option.some.inj hconnected
      exact ⟨_, PlayerPool.getPlayer_newPlayer _ _ _, rfl⟩
    · rw [AList.lookup_insert_ne hother] at hconnected
      obtain ⟨player, hplayer, hbound⟩ := h.connected_pool hconnected
      have hne : otherID ≠ connectID := by
        intro heq
        rw [heq] at hconnected
        exact hid other hconnected
      exact ⟨player, by rwa [PlayerPool.getPlayer_newPlayer_of_ne _ _ hne], hbound⟩

theorem disconnect {s : Session} (h : s.Bound) {peer : ENetPeer}
    (hid : s.connected.lookup peer = some 0) :
    (s.step instanceId (.disconnect peer 0)).Bound := by
  obtain ⟨player, hplayer, hbound⟩ := h.connected_pool hid
  have hstep : s.step instanceId (.disconnect peer 0) =
      ⟨s.playerPool.removePlayer 0, s.next, s.connected.erase peer⟩ := by
    simp only [step, handled, handleEvent_disconnect_some _ _ _ hplayer]
  rw [hstep]
  constructor
  · intro other otherPlayer hother
    have hne : other ≠ 0 := by
      intro heq
      rw [heq, PlayerPool.getPlayer_removePlayer] at hother
      cases hother
    rw [PlayerPool.getPlayer_removePlayer_of_ne _ hne] at hother
    have hconnected := h.pool_connected hother
    have hpeer : otherPlayer.m_pPeer ≠ peer := by
      intro heq
      rw [heq, hid] at hconnected
      exact hne (Option.some.inj hconnected).symm
    rw [AList.lookup_erase_ne hpeer]
    exact hconnected
  · intro other otherID hconnected
    have hpeer : other ≠ peer := by
      intro heq
      rw [heq, AList.lookup_erase] at hconnected
      cases hconnected
    rw [AList.lookup_erase_ne hpeer] at hconnected
    obtain ⟨otherPlayer, hother, hotherPeer⟩ := h.connected_pool hconnected
    have hne : otherID ≠ 0 := by
      intro heq
      rw [heq, hplayer] at hother
      rw [← hotherPeer, ← Option.some.inj hother] at hpeer
      exact hpeer hbound
    exact ⟨otherPlayer, by rwa [PlayerPool.getPlayer_removePlayer_of_ne _ hne], hotherPeer⟩

theorem step {s : Session} (h : s.Bound) {event : ENetEvent} (henet : s.Disciplined event)
    (hid : s.DistinctIds event) : (s.step instanceId event).Bound := by
  cases event with
  | none => exact ⟨h.pool_connected, h.connected_pool⟩
  | connect peer connectID => exact h.connect instanceId henet hid
  | disconnect peer connectID =>
    obtain ⟨-, rfl⟩ := henet
    exact h.disconnect instanceId hid
  | receive peer connectID packet =>
    have hpool := (handleEvent_receive instanceId s.playerPool s.next peer connectID packet).1
    constructor
    · intro other player hplayer
      simp only [Session.step, handled, hpool] at hplayer
      exact h.pool_connected hplayer
    · intro other otherID hconnected
      simp only [Session.step, handled, hpool]
      exact h.connected_pool hconnected

end Bound

theorem queued_own (s : Session) (h : s.Bound) (peer : ENetPeer) (connectID : UInt32)
    (packet : ENetPacket) (henet : s.Disciplined (.receive peer connectID packet))
    (hlen : acceptsLength packet) (htext : isText packet) :
    ∃ player, player ∈ s.playerPool.getPlayers ∧ player.m_pPeer = peer ∧
      (s.handled instanceId (.receive peer connectID packet)).queued =
        [textEvent instanceId player (packetText packet)] := by
  obtain ⟨player, hplayer, hpeer⟩ := h.connected_pool henet
  have hqueued := (handleEvent_receive instanceId s.playerPool s.next peer connectID packet).2
  rw [if_pos ⟨hlen, htext⟩, hplayer] at hqueued
  exact ⟨player, (PlayerPool.mem_getPlayers _ _).mpr ⟨connectID, hplayer⟩, hpeer, hqueued⟩

/-- A peer that connects under an id in use gets no player. -/
theorem distinct_of_mirrors {s : Session} (h : s.Bound) {peer : ENetPeer} {connectID : UInt32}
    (hnew : s.connected.lookup peer = none)
    (hgood : s.Mirrors instanceId (.connect peer connectID)) :
    s.DistinctIds (.connect peer connectID) := by
  intro other hother
  obtain ⟨player, hplayer, -⟩ := h.connected_pool hother
  have hpool : (s.step instanceId (.connect peer connectID)).playerPool = s.playerPool := by
    simp only [step, handled, handleEvent_connect_some _ _ _ hplayer]
  have hmem : peer ∈ (s.step instanceId (.connect peer connectID)).peers := by
    rw [hgood.players.mem_iff, mem_connected]
    exact ⟨connectID, AList.lookup_insert _⟩
  obtain ⟨ownID, own, hown, rfl⟩ := (mem_peers _ _).mp hmem
  rw [hpool] at hown
  have hconnected := h.pool_connected hown
  rw [hnew] at hconnected
  cases hconnected

/-- A player filed under another id than 0 outlives its session. -/
theorem zero_of_mirrors {s : Session} (h : s.Bound) {peer : ENetPeer} {ownID : UInt32}
    (hownID : s.connected.lookup peer = some ownID)
    (hgood : s.Mirrors instanceId (.disconnect peer 0)) : ownID = 0 := by
  obtain ⟨player, hplayer, hpeer⟩ := h.connected_pool hownID
  by_contra hzero
  have hkept : (s.step instanceId (.disconnect peer 0)).playerPool.getPlayer ownID =
      some player := by
    cases hfound : s.playerPool.getPlayer 0 with
    | none =>
      simp only [step, handled, handleEvent_disconnect_none _ _ _ hfound]
      exact hplayer
    | some found =>
      simp only [step, handled, handleEvent_disconnect_some _ _ _ hfound]
      rwa [PlayerPool.getPlayer_removePlayer_of_ne _ hzero]
  have hmem : peer ∈ (s.step instanceId (.disconnect peer 0)).peers :=
    (mem_peers _ _).mpr ⟨ownID, player, hkept, hpeer⟩
  rw [hgood.players.mem_iff, mem_connected] at hmem
  obtain ⟨connectID, hconnected⟩ := hmem
  have herased : (s.connected.erase peer).lookup peer = some connectID := hconnected
  rw [AList.lookup_erase] at herased
  cases herased

theorem mirrors_iff (s : Session) (event : ENetEvent) (h : s.Bound)
    (henet : s.Disciplined event) : s.Mirrors instanceId event ↔ s.DistinctIds event := by
  constructor
  · intro hgood
    cases event with
    | none => trivial
    | connect peer connectID => exact distinct_of_mirrors instanceId h henet hgood
    | disconnect peer connectID =>
      obtain ⟨hsome, rfl⟩ := henet
      obtain ⟨ownID, hownID⟩ := Option.isSome_iff_exists.mp hsome
      have hzero := zero_of_mirrors instanceId h hownID hgood
      rwa [hzero] at hownID
    | receive peer connectID packet => trivial
  · intro hid
    have hbound := h.step instanceId henet hid
    refine ⟨hbound.perm, hbound.active, ?_⟩
    intro peer connectID packet hevent hlen htext
    subst hevent
    exact s.queued_own instanceId h peer connectID packet henet hlen htext

/-- In every run of ENet's events, the pool mirrors the connected peers all the way
exactly when no peer connects under an id that is in use and every peer that
disconnects had picked the id 0. -/
theorem along_mirrors_iff (events : List ENetEvent)
    (henet : Along (step instanceId) Disciplined {} events) :
    Along (step instanceId) (Mirrors instanceId) {} events ↔
      Along (step instanceId) DistinctIds {} events :=
  along_iff bound_start (fun _ _ h henet hid => h.step instanceId henet hid)
    (fun s event h henet => s.mirrors_iff instanceId event h henet) henet

theorem along_mirrors_zero :
    let events : List ENetEvent := [.connect 0 0, .receive 0 0 ⟨0, [2, 0, 0, 0, 65, 0]⟩,
      .disconnect 0 0]
    Along (step 0) (Mirrors 0) {} events ↔ Along (step 0) DistinctIds {} events :=
  along_mirrors_iff 0 _ (by decide)

theorem not_along_mirrors :
    Along (step 0) Disciplined {} [.connect 0 7, .disconnect 0 0] ∧
      ¬ Along (step 0) (Mirrors 0) {} [.connect 0 7, .disconnect 0 0] := by
  refine ⟨by decide, fun h => ?_⟩
  have hactive := h.2.1.active
  revert hactive
  decide

end Session

end GrowServer
