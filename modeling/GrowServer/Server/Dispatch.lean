import GrowServer.Server.ServerPool

/-!
# Network thread and worker (Server/ServerPool.cpp, Event/EventPool.cpp)

The two threads together: the network thread handles events of the instances and
queues texts with a `Player*`, the worker dispatches the front of the queue. The
pointer does not keep the player alive.
-/

namespace GrowServer
open RunLogic LittleEndian

structure Threads (H : Type) where
  serverPool : ServerPool
  eventPool : EventPool H
  next : ℕ := 0

inductive ThreadAction where
  | event (instanceId : UInt8) (event : ENetEvent)
  | servicePoll

namespace Threads
variable {H : Type}

def step (s : Threads H) : ThreadAction → Threads H
  | .event instanceId event =>
    let (serverPool, queued, next) := s.serverPool.handleEvent instanceId s.next event
    { serverPool, next, eventPool := queued.foldl EventPool.addQueue s.eventPool }
  | .servicePoll => { s with eventPool := s.eventPool.servicePoll.2 }

def Live (s : Threads H) (data : EventData) : Prop :=
  ∃ connectID, (s.serverPool.getPlayerPool data.pServer).getPlayer connectID = some data.pAvatar

/-- Whatever the worker dispatches carries a player that has not been removed. -/
def DispatchesLive (s : Threads H) (a : ThreadAction) : Prop :=
  a = .servicePoll → ∀ data ∈ s.eventPool.m_workerQueue.head?, s.Live data

/-- A player that DISCONNECT finds has no event left in the queue. -/
def DisconnectsDrained (s : Threads H) : ThreadAction → Prop
  | .event instanceId (.disconnect _ connectID) =>
    ∀ player, (s.serverPool.getPlayerPool instanceId).getPlayer connectID = some player →
      ∀ data ∈ s.eventPool.m_workerQueue, data.pServer = instanceId → data.pAvatar ≠ player
  | _ => True

def QueueLive (s : Threads H) : Prop := ∀ data ∈ s.eventPool.m_workerQueue, s.Live data

theorem addQueue_foldl (queued : List EventData) (pool : EventPool H) :
    (queued.foldl EventPool.addQueue pool).m_workerQueue = pool.m_workerQueue ++ queued := by
  induction queued generalizing pool with
  | nil => exact (List.append_nil _).symm
  | cons data queued ih =>
    rw [List.foldl_cons, ih]
    exact List.append_assoc _ _ _

theorem mem_servicePoll (pool : EventPool H) {data : EventData}
    (h : data ∈ pool.servicePoll.2.m_workerQueue) : data ∈ pool.m_workerQueue := by
  cases hqueue : pool.m_workerQueue with
  | nil =>
    rw [pool.servicePoll_nil hqueue, hqueue] at h
    exact h
  | cons front queue =>
    obtain ⟨dispatch, pool', hpoll, -, -, hqueue'⟩ := pool.servicePoll_cons front queue hqueue
    rw [hpoll] at h
    rw [hqueue'] at h
    split at h
    · exact List.mem_cons_of_mem _ h
    · exact h

theorem player_survives (instanceId : UInt8) (pool : PlayerPool) (next : ℕ) (event : ENetEvent)
    (player : PlayerPtr) (h : ∃ connectID, pool.getPlayer connectID = some player)
    (hkept : ∀ peer connectID, event = .disconnect peer connectID →
      pool.getPlayer connectID ≠ some player) :
    ∃ connectID, (handleEvent instanceId pool next event).playerPool.getPlayer connectID =
      some player := by
  obtain ⟨connectID, hplayer⟩ := h
  cases event with
  | none => exact ⟨connectID, hplayer⟩
  | connect peer newID =>
    cases hfound : pool.getPlayer newID with
    | none =>
      have hne : connectID ≠ newID := by
        intro heq
        rw [heq, hfound] at hplayer
        cases hplayer
      rw [handleEvent_connect_none _ _ _ hfound]
      exact ⟨connectID, by rwa [PlayerPool.getPlayer_newPlayer_of_ne _ _ hne]⟩
    | some found =>
      rw [handleEvent_connect_some _ _ _ hfound]
      exact ⟨connectID, hplayer⟩
  | disconnect peer goneID =>
    cases hfound : pool.getPlayer goneID with
    | none =>
      rw [handleEvent_disconnect_none _ _ _ hfound]
      exact ⟨connectID, hplayer⟩
    | some found =>
      have hne : connectID ≠ goneID := by
        intro heq
        rw [heq] at hplayer
        exact hkept peer goneID rfl hplayer
      rw [handleEvent_disconnect_some _ _ _ hfound]
      exact ⟨connectID, by rwa [PlayerPool.getPlayer_removePlayer_of_ne _ hne]⟩
  | receive peer otherID packet =>
    rw [(handleEvent_receive instanceId pool next peer otherID packet).1]
    exact ⟨connectID, hplayer⟩

/-- What is queued already stays alive, where no DISCONNECT finds its player. -/
theorem live_survives (s : Threads H) {instanceId : UInt8} {event : ENetEvent} {server : Server}
    (hserver : s.serverPool.m_servers.lookup instanceId = some server)
    (hdrained : s.DisconnectsDrained (.event instanceId event)) {data : EventData}
    (hdata : data ∈ s.eventPool.m_workerQueue) (hlive : s.Live data) :
    (s.step (.event instanceId event)).Live data := by
  show ∃ connectID, ((s.serverPool.handleEvent instanceId s.next event).1.getPlayerPool
    data.pServer).getPlayer connectID = some data.pAvatar
  rw [s.serverPool.getPlayerPool_handleEvent _ _ hserver]
  by_cases hinstance : data.pServer = instanceId
  · rw [if_pos hinstance]
    refine player_survives _ _ _ _ _ (by rw [← hinstance]; exact hlive) ?_
    intro peer connectID hevent hfound
    subst hevent
    exact hdrained data.pAvatar hfound data hdata hinstance rfl
  · rw [if_neg hinstance]
    exact hlive

theorem queued_live (s : Threads H) {instanceId : UInt8} {event : ENetEvent} {server : Server}
    (hserver : s.serverPool.m_servers.lookup instanceId = some server) {data : EventData}
    (hdata : data ∈ (s.serverPool.handleEvent instanceId s.next event).2.1) :
    (s.step (.event instanceId event)).Live data := by
  show ∃ connectID, ((s.serverPool.handleEvent instanceId s.next event).1.getPlayerPool
    data.pServer).getPlayer connectID = some data.pAvatar
  rw [s.serverPool.queued_handleEvent _ _ hserver] at hdata
  obtain ⟨hinstance, connectID, hplayer, hsame⟩ := mem_queued _ _ _ hdata
  rw [s.serverPool.getPlayerPool_handleEvent _ _ hserver, if_pos hinstance, hsame]
  exact ⟨connectID, hplayer⟩

theorem queueLive_step (s : Threads H) (a : ThreadAction) (h : s.QueueLive)
    (hdrained : s.DisconnectsDrained a) : (s.step a).QueueLive := by
  cases a with
  | servicePoll =>
    intro data hdata
    exact h data (mem_servicePoll s.eventPool hdata)
  | event instanceId event =>
    intro data hdata
    have hqueue : data ∈ s.eventPool.m_workerQueue ++
        (s.serverPool.handleEvent instanceId s.next event).2.1 := by
      rw [← addQueue_foldl]
      exact hdata
    cases hserver : s.serverPool.m_servers.lookup instanceId with
    | none =>
      have hnothing := s.serverPool.handleEvent_none s.next event hserver
      rw [hnothing, List.append_nil] at hqueue
      show ∃ connectID, ((s.serverPool.handleEvent instanceId s.next event).1.getPlayerPool
        data.pServer).getPlayer connectID = some data.pAvatar
      rw [hnothing]
      exact h data hqueue
    | some server =>
      rcases List.mem_append.mp hqueue with hold | hnew
      · exact s.live_survives hserver hdrained hold (h data hold)
      · exact s.queued_live hserver hnew

/-- In every run of the two threads in which a player that is removed has no event
left in the queue, the worker only ever dispatches events of players that are in
their pools. -/
theorem along_dispatchesLive (serverPool : ServerPool) (m_data : AList (fun _ : Bytes => H))
    (next : ℕ) (as : List ThreadAction)
    (h : Along step DisconnectsDrained ⟨serverPool, { m_data }, next⟩ as) :
    Along step DispatchesLive ⟨serverPool, { m_data }, next⟩ as := by
  refine Along.of_invariant (I := QueueLive) ?_ queueLive_step ?_ h
  · intro data hdata
    cases hdata
  · intro s a hlive _ _ data hfront
    exact hlive data (List.mem_of_mem_head? hfront)

def oneInstance : Threads Unit :=
  ⟨{ m_servers := AList.singleton 0 { port := basePort } }, { m_data := ∅ }, 0⟩

def actionText : ENetPacket := ⟨0, [2, 0, 0, 0, 97, 0]⟩

theorem along_dispatchesLive_served :
    Along step DispatchesLive
      ⟨oneInstance.serverPool, { m_data := AList.singleton [97] () }, 0⟩
      [.event 0 (.connect 0 7), .event 0 (.receive 0 7 actionText), .servicePoll,
        .event 0 (.disconnect 0 7)] := by
  refine along_dispatchesLive _ _ _ _ ⟨trivial, trivial, trivial, ?_, trivial⟩
  intro player _ data hdata
  cases hdata

theorem not_along_dispatchesLive :
    ¬ Along step DispatchesLive oneInstance
      [.event 0 (.connect 0 7), .event 0 (.receive 0 7 actionText), .event 0 (.disconnect 0 7),
        .servicePoll] := by
  intro h
  obtain ⟨connectID, hlive⟩ := h.2.2.2.1 rfl _ rfl
  have hgone : ((exec step oneInstance [.event 0 (.connect 0 7),
      .event 0 (.receive 0 7 actionText), .event 0 (.disconnect 0 7)]).serverPool.getPlayerPool
        0).getPlayers = [] := by decide
  have hmem := (PlayerPool.mem_getPlayers _ _).mpr ⟨connectID, hlive⟩
  exact List.not_mem_nil (hgone ▸ hmem)

end Threads

end GrowServer
