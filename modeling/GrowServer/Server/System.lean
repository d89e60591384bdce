import GrowServer.Event.HandlerFrame
import GrowServer.Event.IgnoredAvatar
import GrowServer.Event.PlayerRuns
import GrowServer.Lib.Tagged
import GrowServer.Server.Dispatch

/-!
# The running server (Server/ServerPool.cpp, Event/EventPool.cpp, Player/PlayerPool.cpp)

The network thread and the worker over one memory of players. The network thread creates a
player for a connection and deletes it; the worker runs the handlers on the player that the
event it dispatches points to. Which instances run is left as it is. No address is handed out
twice: where `new` gives out one that was freed, it counts as another, so that an address
names one player throughout. A use of a deleted player is undefined and ends the run.
-/

namespace GrowServer
open LittleEndian RunLogic Outcome

/-- What ends the server. -/
inductive SystemFault where
  | handler (fault : Fault)
  | deletedPlayer (address : ℕ)
  deriving DecidableEq, Repr

/-- The players by address, and the texts the worker has handled so far, each with the
address of its player. -/
structure System where
  serverPool : ServerPool
  eventPool : EventPool EventFunction
  next : ℕ := 0
  players : ℕ → Option Player := fun _ => none
  handled : List (ℕ × Message) := []

inductive SystemAction where
  | event (instanceId : UInt8) (event : ENetEvent)
  | servicePoll (globals : Globals)

/-- `new Player(peer)`: nothing of it depends on the item table or the peer. -/
theorem create_eq (items : ItemManager) : Player.create items = .ok newcomer.player := rfl

namespace System

def start (serverPool : ServerPool) : System := { serverPool, eventPool := { m_data := textEvents } }

/-- The player filed on an instance under a connect id. -/
def filed (s : System) (instanceId : UInt8) (connectID : UInt32) : Option PlayerPtr :=
  (s.serverPool.getPlayerPool instanceId).getPlayer connectID

/-- `delete` of a player that is found. -/
def delete (players : ℕ → Option Player) : Option PlayerPtr → ℕ → Option Player
  | none => players
  | some player => Function.update players player.address none

/-- The memory behind an event, for which `next` is the next free address. -/
def playersAfter (s : System) (instanceId : UInt8) (next : ℕ) : ENetEvent → ℕ → Option Player
  | .connect _ _ =>
    if s.next < next then Function.update s.players s.next (some newcomer.player) else s.players
  | .disconnect _ connectID => delete s.players (s.filed instanceId connectID)
  | _ => s.players

def onEvent (s : System) (instanceId : UInt8) (event : ENetEvent) : System :=
  let (serverPool, queued, next) := s.serverPool.handleEvent instanceId s.next event
  { s with
    serverPool, next
    eventPool := queued.foldl EventPool.addQueue s.eventPool
    players := s.playersAfter instanceId next event }

def message (globals : Globals) (data : EventData) : Message := ⟨globals, data.eventData⟩

/-- The handler runs while the event is at the front, also if its player has been deleted:
then it ends with the first use of the player, if it comes to one. -/
def onDispatch (s : System) (globals : Globals) (dispatch : Dispatch EventFunction)
    (eventPool : EventPool EventFunction) : Except SystemFault System :=
  let data := dispatch.data
  let handled := s.handled ++ [(data.pAvatar.address, message globals data)]
  match s.players data.pAvatar.address with
  | none =>
    match ignoresAvatar data.eventName data.eventParser with
    | .error fault => .error (.handler fault)
    | .ok false => .error (.deletedPlayer data.pAvatar.address)
    | .ok true => .ok { s with eventPool, handled }
  | some player =>
    match Dispatch.handle globals { player } dispatch with
    | .error fault => .error (.handler fault)
    | .ok after => .ok
      { s with
        eventPool
        players := Function.update s.players data.pAvatar.address (some after.player)
        handled }

def step (s : System) : SystemAction → Except SystemFault System
  | .event instanceId event => .ok (s.onEvent instanceId event)
  | .servicePoll globals =>
    match s.eventPool.servicePoll with
    | (none, _) => .ok s
    | (some dispatch, eventPool) => s.onDispatch globals dispatch eventPool

/-! ### What an event does -/

/-- An event leaves the players as they are, creates one, or deletes one. -/
inductive EventEffect (s : System) (instanceId : UInt8) (s' : System) : Prop where
  | kept (hnext : s'.next = s.next) (hplayers : s'.players = s.players)
    (hfiled : ∀ i c, s'.filed i c = s.filed i c)
  | created (connectID : UInt32) (peer : ENetPeer) (hnext : s'.next = s.next + 1)
    (hplayers : s'.players = Function.update s.players s.next (some newcomer.player))
    (hfree : s.filed instanceId connectID = none)
    (hfiled : ∀ i c, s'.filed i c =
      if i = instanceId ∧ c = connectID then some ⟨s.next, peer⟩ else s.filed i c)
  | deleted (connectID : UInt32) (player : PlayerPtr) (hnext : s'.next = s.next)
    (hplayers : s'.players = Function.update s.players player.address none)
    (hfound : s.filed instanceId connectID = some player)
    (hfiled : ∀ i c, s'.filed i c =
      if i = instanceId ∧ c = connectID then none else s.filed i c)

section Events
variable (s : System) (instanceId : UInt8)

theorem onEvent_none (event : ENetEvent) (h : s.serverPool.m_servers.lookup instanceId = none) :
    EventEffect s instanceId (s.onEvent instanceId event) := by
  have hnothing := s.serverPool.handleEvent_none s.next event h
  have hempty (connectID : UInt32) : s.filed instanceId connectID = none := by
    rw [filed, ServerPool.getPlayerPool, h]
    rfl
  have hpool : (s.onEvent instanceId event).serverPool = s.serverPool := by
    simp only [onEvent, hnothing]
  refine .kept (by simp only [onEvent, hnothing]) ?_ fun i c => by rw [filed, hpool, filed]
  cases event with
  | connect peer connectID => simp only [onEvent, hnothing, playersAfter, Nat.lt_irrefl, if_false]
  | disconnect peer connectID => simp only [onEvent, hnothing, playersAfter, hempty, delete]
  | _ => rfl

theorem filed_onEvent (event : ENetEvent) {server : Server}
    (h : s.serverPool.m_servers.lookup instanceId = some server) (i : UInt8) (c : UInt32) :
    (s.onEvent instanceId event).filed i c =
      if i = instanceId then
        (GrowServer.handleEvent instanceId (s.serverPool.getPlayerPool instanceId) s.next
          event).playerPool.getPlayer c
      else s.filed i c := by
  have hpool := s.serverPool.getPlayerPool_handleEvent s.next event h i
  show ((s.serverPool.handleEvent instanceId s.next event).1.getPlayerPool i).getPlayer c = _
  rw [hpool]
  split
  · rfl
  · rfl

theorem next_onEvent (event : ENetEvent) {server : Server}
    (h : s.serverPool.m_servers.lookup instanceId = some server) :
    (s.onEvent instanceId event).next =
      (GrowServer.handleEvent instanceId (s.serverPool.getPlayerPool instanceId) s.next
        event).next := by
  rw [s.serverPool.getPlayerPool_of_lookup h]
  simp only [onEvent, ServerPool.handleEvent, h]

theorem filed_same (i : UInt8) (c : UInt32) :
    (if i = instanceId then (s.serverPool.getPlayerPool instanceId).getPlayer c
      else s.filed i c) = s.filed i c := by
  split
  · rename_i hi
    rw [hi]
    rfl
  · rfl

theorem onEvent_connect (peer : ENetPeer) (connectID : UInt32) {server : Server}
    (h : s.serverPool.m_servers.lookup instanceId = some server) :
    EventEffect s instanceId (s.onEvent instanceId (.connect peer connectID)) := by
  have hnext := s.next_onEvent instanceId (.connect peer connectID) h
  have hfiled := s.filed_onEvent instanceId (.connect peer connectID) h
  have hplayers : (s.onEvent instanceId (.connect peer connectID)).players =
      if s.next < (s.onEvent instanceId (.connect peer connectID)).next then
        Function.update s.players s.next (some newcomer.player) else s.players := rfl
  cases hfound : s.filed instanceId connectID with
  | some player =>
    rw [handleEvent_connect_some _ _ _ hfound] at hnext hfiled
    exact .kept hnext (by rw [hplayers, hnext, if_neg (Nat.lt_irrefl _)])
      fun i c => (hfiled i c).trans (s.filed_same instanceId i c)
  | none =>
    rw [handleEvent_connect_none _ _ _ hfound] at hnext hfiled
    refine .created connectID peer hnext
      (by rw [hplayers, hnext, if_pos (Nat.lt_succ_self _)]) hfound ?_
    intro i c
    rw [hfiled]
    by_cases hi : i = instanceId
    · by_cases hc : c = connectID
      · rw [if_pos hi, if_pos ⟨hi, hc⟩, hc]
        exact PlayerPool.getPlayer_newPlayer _ _ _
      · rw [if_pos hi, if_neg fun hboth => hc hboth.2, hi]
        exact PlayerPool.getPlayer_newPlayer_of_ne _ _ hc
    · rw [if_neg hi, if_neg fun hboth => hi hboth.1]

theorem onEvent_disconnect (peer : ENetPeer) (connectID : UInt32) {server : Server}
    (h : s.serverPool.m_servers.lookup instanceId = some server) :
    EventEffect s instanceId (s.onEvent instanceId (.disconnect peer connectID)) := by
  have hnext := s.next_onEvent instanceId (.disconnect peer connectID) h
  have hfiled := s.filed_onEvent instanceId (.disconnect peer connectID) h
  have hplayers : (s.onEvent instanceId (.disconnect peer connectID)).players =
      delete s.players (s.filed instanceId connectID) := rfl
  cases hfound : s.filed instanceId connectID with
  | none =>
    rw [handleEvent_disconnect_none _ _ _ hfound] at hnext hfiled
    exact .kept hnext (by rw [hplayers, hfound, delete])
      fun i c => (hfiled i c).trans (s.filed_same instanceId i c)
  | some player =>
    rw [handleEvent_disconnect_some _ _ _ hfound] at hnext hfiled
    refine .deleted connectID player hnext (by rw [hplayers, hfound, delete]) hfound ?_
    intro i c
    rw [hfiled]
    by_cases hi : i = instanceId
    · by_cases hc : c = connectID
      · rw [if_pos hi, if_pos ⟨hi, hc⟩, hc]
        exact PlayerPool.getPlayer_removePlayer _ _
      · rw [if_pos hi, if_neg fun hboth => hc hboth.2, hi]
        exact PlayerPool.getPlayer_removePlayer_of_ne _ hc
    · rw [if_neg hi, if_neg fun hboth => hi hboth.1]

theorem onEvent_effect (event : ENetEvent) :
    EventEffect s instanceId (s.onEvent instanceId event) := by
  cases hserver : s.serverPool.m_servers.lookup instanceId with
  | none => exact s.onEvent_none instanceId event hserver
  | some server =>
    have hnext := s.next_onEvent instanceId event hserver
    have hfiled := s.filed_onEvent instanceId event hserver
    cases event with
    | connect peer connectID => exact s.onEvent_connect instanceId peer connectID hserver
    | disconnect peer connectID => exact s.onEvent_disconnect instanceId peer connectID hserver
    | none =>
      exact .kept hnext rfl fun i c => (hfiled i c).trans (s.filed_same instanceId i c)
    | receive peer connectID packet =>
      rw [next_receive] at hnext
      rw [(handleEvent_receive instanceId _ s.next peer connectID packet).1] at hfiled
      exact .kept hnext rfl fun i c => (hfiled i c).trans (s.filed_same instanceId i c)

end Events

/-! ### What a dispatch does -/

/-- What the queue holds of an event is what the network thread made of the text. -/
def FromText (data : EventData) : Prop :=
  data.eventName = eventNameOf data.eventData ∧ data.eventParser = TextParse.parse data.eventData

/-- The worker had nothing to do, or handled the text at the front, for a player in memory or
for one that has been deleted and that the handler does not come to. -/
inductive PollEffect (s : System) (globals : Globals) (s' : System) : Prop where
  | idle (hempty : s.eventPool.m_workerQueue = []) (h : s' = s)
  | ignored (data : EventData) (hfront : data ∈ s.eventPool.m_workerQueue.head?)
    (hdeleted : s.players data.pAvatar.address = none) (hignores : IgnoresAvatar data.eventData)
    (hpool : s'.serverPool = s.serverPool) (hnext : s'.next = s.next)
    (hqueue : ∀ other ∈ s'.eventPool.m_workerQueue, other ∈ s.eventPool.m_workerQueue)
    (hplayers : s'.players = s.players)
    (hhandled : s'.handled = s.handled ++ [(data.pAvatar.address, message globals data)])
  | handled (data : EventData) (player : Player) (after : Avatar)
    (hfront : data ∈ s.eventPool.m_workerQueue.head?)
    (halive : s.players data.pAvatar.address = some player)
    (hafter : Worker.handle { player } (message globals data) = .ok after)
    (hpool : s'.serverPool = s.serverPool) (hnext : s'.next = s.next)
    (hqueue : ∀ other ∈ s'.eventPool.m_workerQueue, other ∈ s.eventPool.m_workerQueue)
    (hplayers : s'.players =
      Function.update s.players data.pAvatar.address (some after.player))
    (hhandled : s'.handled = s.handled ++ [(data.pAvatar.address, message globals data)])

section Polls
variable {s s' : System} {globals : Globals}

theorem handle_dispatch {pool : EventPool EventFunction} (hm_data : pool.m_data = textEvents)
    {data : EventData} {queue : List EventData} (hqueue : pool.m_workerQueue = data :: queue)
    (htext : FromText data) (globals : Globals) (avatar : Avatar) :
    ∃ dispatch, pool.servicePoll.1 = some dispatch ∧ dispatch.data = data ∧
      Dispatch.handle globals avatar dispatch = handleText globals data.eventData avatar := by
  obtain ⟨hname, hparser⟩ := htext
  unfold EventPool.servicePoll EventPool.getEventIfExists handleText
  rw [hqueue, hm_data]
  simp only
  rw [hname]
  cases textEvents.lookup (eventNameOf data.eventData) with
  | none =>
    refine ⟨_, rfl, rfl, ?_⟩
    simp only [Dispatch.handle, hname, hparser]
  | some eventFunction =>
    refine ⟨_, rfl, rfl, ?_⟩
    simp only [Dispatch.handle, hparser]

theorem servicePoll_queue {pool pool' : EventPool EventFunction}
    {dispatch : Option (Dispatch EventFunction)} (h : pool.servicePoll = (dispatch, pool')) :
    pool'.m_data = pool.m_data ∧
      ∀ data ∈ pool'.m_workerQueue, data ∈ pool.m_workerQueue := by
  have hqueue (data : EventData) (hdata : data ∈ pool'.m_workerQueue) :
      data ∈ pool.m_workerQueue := by
    refine Threads.mem_servicePoll pool ?_
    rwa [h]
  refine ⟨?_, hqueue⟩
  cases hfront : pool.m_workerQueue with
  | nil =>
    rw [pool.servicePoll_nil hfront] at h
    rw [(Prod.mk.inj h).2]
  | cons data queue =>
    obtain ⟨dispatch', after, hpoll, -, hm_data, -⟩ := pool.servicePoll_cons data queue hfront
    rw [hpoll] at h
    rw [← (Prod.mk.inj h).2, hm_data]

/-- With a text at the front, an iteration is the handler of the text on its player, as far as
it comes where the player has been deleted. -/
theorem step_front (hm_data : s.eventPool.m_data = textEvents) {data : EventData}
    {queue : List EventData} (hfront : s.eventPool.m_workerQueue = data :: queue)
    (htext : FromText data) :
    s.step (.servicePoll globals) =
      match s.players data.pAvatar.address with
      | none =>
        match ignoresAvatar data.eventName data.eventParser with
        | .error fault => .error (.handler fault)
        | .ok false => .error (.deletedPlayer data.pAvatar.address)
        | .ok true => .ok
          { s with
            eventPool := s.eventPool.servicePoll.2
            handled := s.handled ++ [(data.pAvatar.address, message globals data)] }
      | some player =>
        match Worker.handle { player } (message globals data) with
        | .error fault => .error (.handler fault)
        | .ok after => .ok
          { s with
            eventPool := s.eventPool.servicePoll.2
            players := Function.update s.players data.pAvatar.address (some after.player)
            handled := s.handled ++ [(data.pAvatar.address, message globals data)] } := by
  cases hpoll : s.eventPool.servicePoll with
  | mk front pool' =>
    have hhandle (avatar : Avatar) := handle_dispatch hm_data hfront htext globals avatar
    rw [hpoll] at hhandle
    obtain ⟨dispatch, rfl, hdata, -⟩ := hhandle newcomer
    simp only [step, hpoll, onDispatch, hdata]
    cases s.players data.pAvatar.address with
    | none => rfl
    | some player =>
      obtain ⟨same, hsame, -, hhandled⟩ := hhandle { player }
      obtain rfl := Option.some.inj hsame
      simp only [hhandled]
      rfl

theorem servicePoll_effect (hm_data : s.eventPool.m_data = textEvents)
    (htexts : ∀ data ∈ s.eventPool.m_workerQueue, FromText data)
    (h : s.step (.servicePoll globals) = .ok s') : PollEffect s globals s' := by
  cases hfront : s.eventPool.m_workerQueue with
  | nil =>
    have hpoll := s.eventPool.servicePoll_nil hfront
    simp only [step, hpoll] at h
    exact .idle hfront (Except.ok.inj h).symm
  | cons data queue =>
    have htext := htexts data (hfront ▸ List.mem_cons_self ..)
    have hhead : data ∈ s.eventPool.m_workerQueue.head? := by
      rw [hfront]
      rfl
    rw [step_front hm_data hfront htext] at h
    cases halive : s.players data.pAvatar.address with
    | none =>
      have hignores := ignoresAvatar_iff data.eventData
      rw [← htext.1, ← htext.2] at hignores
      cases hused : ignoresAvatar data.eventName data.eventParser with
      | error fault =>
        simp only [halive, hused] at h
        cases h
      | ok ignored =>
        cases ignored with
        | false =>
          simp only [halive, hused] at h
          cases h
        | true =>
          simp only [halive, hused] at h
          obtain rfl := Except.ok.inj h
          exact .ignored data hhead halive (hignores.mp hused) rfl rfl
            (fun other hother => Threads.mem_servicePoll s.eventPool hother) rfl rfl
    | some player =>
      cases hafter : Worker.handle { player } (message globals data) with
      | error fault =>
        simp only [halive, hafter] at h
        cases h
      | ok after =>
        simp only [halive, hafter] at h
        obtain rfl := Except.ok.inj h
        exact .handled data player after hhead halive hafter rfl rfl
          (fun other hother => Threads.mem_servicePoll s.eventPool hother) rfl rfl

end Polls

/-! ### Every reachable state -/

/-- The texts the worker has handled for the player at an address, in order. -/
def history (s : System) (address : ℕ) : List Message :=
  Tagged.own s.handled address

/-- The queue is made by the network thread, for the handlers that are registered. -/
structure Queued (s : System) : Prop where
  m_data : s.eventPool.m_data = textEvents
  texts : ∀ data ∈ s.eventPool.m_workerQueue, FromText data

/-- The players in memory are those filed, each under one connect id of one instance. -/
structure Owned (s : System) : Prop where
  alive : ∀ {i c player}, s.filed i c = some player → (s.players player.address).isSome
  unique : ∀ {i c i' c' player player'}, s.filed i c = some player →
    s.filed i' c' = some player' → player.address = player'.address → i = i' ∧ c = c'
  covered : ∀ {address}, (s.players address).isSome →
    ∃ i c player, s.filed i c = some player ∧ player.address = address
  fresh : ∀ {address}, s.next ≤ address → s.players address = none

/-- Each player in memory is what its own texts have made of a new one. -/
structure Recorded (s : System) : Prop where
  run : ∀ {address player}, s.players address = some player → ∃ avatar,
    exec (untilFailure Worker.handle) (.ok newcomer) (s.history address) = .ok avatar ∧
      avatar.player = player
  past : ∀ entry ∈ s.handled, entry.1 < s.next

/-- What is queued is of players that were handed out. -/
def Known (s : System) : Prop :=
  ∀ data ∈ s.eventPool.m_workerQueue, data.pAvatar.address < s.next

structure Reachable (s : System) : Prop where
  queued : s.Queued
  owned : s.Owned
  recorded : s.Recorded
  known : s.Known

section Invariant
variable {s s' : System}

theorem owned_created {instanceId : UInt8} {connectID : UInt32} {peer : ENetPeer} {player : Player}
    (h : s.Owned) (hnext : s'.next = s.next + 1)
    (hplayers : s'.players = Function.update s.players s.next (some player))
    (hfree : s.filed instanceId connectID = none)
    (hfiled : ∀ i c, s'.filed i c =
      if i = instanceId ∧ c = connectID then some ⟨s.next, peer⟩ else s.filed i c) : s'.Owned := by
  have hold {i : UInt8} {c : UInt32} {other : PlayerPtr} (hother : s.filed i c = some other) :
      other.address ≠ s.next := by
    intro heq
    have halive := h.alive hother
    rw [heq, h.fresh (Nat.le_refl _)] at halive
    cases halive
  have hcases {i : UInt8} {c : UInt32} {other : PlayerPtr} (hother : s'.filed i c = some other) :
      (i = instanceId ∧ c = connectID ∧ other.address = s.next) ∨ s.filed i c = some other := by
    rw [hfiled] at hother
    split at hother
    · rename_i hnew
      obtain rfl := Option.some.inj hother
      exact Or.inl ⟨hnew.1, hnew.2, rfl⟩
    · exact Or.inr hother
  refine ⟨?_, ?_, ?_, ?_⟩
  · intro i c other hother
    rw [hplayers]
    rcases hcases hother with ⟨-, -, haddress⟩ | hother
    · rw [haddress, Function.update_self]
      rfl
    · rw [Function.update_of_ne (hold hother)]
      exact h.alive hother
  · intro i c i' c' other other' hother hother' heq
    rcases hcases hother with ⟨rfl, rfl, haddress⟩ | hother
    · rcases hcases hother' with ⟨rfl, rfl, -⟩ | hother'
      · exact ⟨rfl, rfl⟩
      · exact absurd (heq.symm.trans haddress) (hold hother')
    · rcases hcases hother' with ⟨rfl, rfl, haddress⟩ | hother'
      · exact absurd (heq.trans haddress) (hold hother)
      · exact h.unique hother hother' heq
  · intro address haddress
    rw [hplayers] at haddress
    by_cases hnew : address = s.next
    · exact ⟨instanceId, connectID, ⟨s.next, peer⟩, by rw [hfiled, if_pos ⟨rfl, rfl⟩], hnew.symm⟩
    · rw [Function.update_of_ne hnew] at haddress
      obtain ⟨i, c, other, hother, hsame⟩ := h.covered haddress
      refine ⟨i, c, other, ?_, hsame⟩
      rw [hfiled, if_neg]
      · exact hother
      · intro hboth
        obtain ⟨rfl, rfl⟩ := hboth
        rw [hfree] at hother
        cases hother
  · intro address haddress
    rw [hnext] at haddress
    rw [hplayers, Function.update_of_ne (by omega)]
    exact h.fresh (by omega)

theorem owned_deleted {instanceId : UInt8} {connectID : UInt32} {gone : PlayerPtr} (h : s.Owned)
    (hnext : s'.next = s.next)
    (hplayers : s'.players = Function.update s.players gone.address none)
    (hfound : s.filed instanceId connectID = some gone)
    (hfiled : ∀ i c, s'.filed i c =
      if i = instanceId ∧ c = connectID then none else s.filed i c) : s'.Owned := by
  have hcases {i : UInt8} {c : UInt32} {other : PlayerPtr} (hother : s'.filed i c = some other) :
      s.filed i c = some other ∧ other.address ≠ gone.address := by
    rw [hfiled] at hother
    split at hother
    · cases hother
    · rename_i hne
      exact ⟨hother, fun heq => hne (h.unique hother hfound heq)⟩
  refine ⟨?_, ?_, ?_, ?_⟩
  · intro i c other hother
    obtain ⟨hold, hne⟩ := hcases hother
    rw [hplayers, Function.update_of_ne hne]
    exact h.alive hold
  · intro i c i' c' other other' hother hother' heq
    exact h.unique (hcases hother).1 (hcases hother').1 heq
  · intro address haddress
    rw [hplayers] at haddress
    by_cases hgone : address = gone.address
    · rw [hgone, Function.update_self] at haddress
      cases haddress
    · rw [Function.update_of_ne hgone] at haddress
      obtain ⟨i, c, other, hother, hsame⟩ := h.covered haddress
      refine ⟨i, c, other, ?_, hsame⟩
      rw [hfiled, if_neg]
      · exact hother
      · intro hboth
        obtain ⟨rfl, rfl⟩ := hboth
        rw [hfound] at hother
        exact hgone (hsame.symm.trans (congrArg PlayerPtr.address (Option.some.inj hother).symm))
  · intro address haddress
    rw [hnext] at haddress
    rw [hplayers]
    by_cases hgone : address = gone.address
    · rw [hgone, Function.update_self]
    · rw [Function.update_of_ne hgone]
      exact h.fresh haddress

/-- Only which addresses are in memory matters. -/
theorem owned_congr (h : s.Owned) (hnext : s'.next = s.next)
    (hplayers : ∀ address, (s'.players address).isSome = (s.players address).isSome)
    (hfiled : ∀ i c, s'.filed i c = s.filed i c) : s'.Owned := by
  refine ⟨?_, ?_, ?_, ?_⟩
  · intro i c player hplayer
    rw [hfiled] at hplayer
    rw [hplayers]
    exact h.alive hplayer
  · intro i c i' c' player player' hplayer hplayer' heq
    rw [hfiled] at hplayer hplayer'
    exact h.unique hplayer hplayer' heq
  · intro address haddress
    rw [hplayers] at haddress
    obtain ⟨i, c, player, hplayer, hsame⟩ := h.covered haddress
    exact ⟨i, c, player, (hfiled i c).trans hplayer, hsame⟩
  · intro address haddress
    rw [hnext] at haddress
    have hnone := hplayers address
    rw [h.fresh haddress] at hnone
    exact Option.isNone_iff_eq_none.mp (by simpa using hnone)

theorem owned_event {instanceId : UInt8} (h : s.Owned) (heffect : EventEffect s instanceId s') :
    s'.Owned := by
  cases heffect with
  | kept hnext hplayers hfiled =>
    exact owned_congr h hnext (fun address => by rw [hplayers]) hfiled
  | created connectID peer hnext hplayers hfree hfiled =>
    exact owned_created h hnext hplayers hfree hfiled
  | deleted connectID player hnext hplayers hfound hfiled =>
    exact owned_deleted h hnext hplayers hfound hfiled

theorem owned_poll {globals : Globals} (h : s.Owned) (heffect : PollEffect s globals s') :
    s'.Owned := by
  cases heffect with
  | idle hempty hsame => rwa [hsame]
  | ignored data hfront hdeleted hignores hpool hnext hqueue hplayers hhandled =>
    exact owned_congr h hnext (fun address => by rw [hplayers]) fun i c => by
      rw [filed, hpool, filed]
  | handled data player after hfront halive hafter hpool hnext hqueue hplayers hhandled =>
    refine owned_congr h hnext ?_ fun i c => by rw [filed, hpool, filed]
    intro address
    rw [hplayers]
    by_cases haddress : address = data.pAvatar.address
    · rw [haddress, Function.update_self, halive]
      rfl
    · rw [Function.update_of_ne haddress]

theorem history_of_handled_eq (h : s'.handled = s.handled) (address : ℕ) :
    s'.history address = s.history address := by
  rw [history, h, history]

theorem history_append {address : ℕ} {message : Message}
    (h : s'.handled = s.handled ++ [(address, message)]) (other : ℕ) :
    s'.history other = if other = address then s.history other ++ [message] else s.history other := by
  rw [history, h, Tagged.own_concat, history]

theorem handle_behind (requests : List Request) (avatar : Avatar) (message : Message) :
    Worker.handle (avatar.behind requests) message =
      (Worker.handle avatar message).map (·.behind requests) :=
  handleText_behind requests avatar message.globals message.text

theorem run_append {messages : List Message} {message : Message} {avatar after : Avatar}
    (hrun : exec (untilFailure Worker.handle) (.ok newcomer) messages = .ok avatar)
    (hafter : Worker.handle { player := avatar.player } message = .ok after) :
    ∃ last, exec (untilFailure Worker.handle) (.ok newcomer) (messages ++ [message]) = .ok last ∧
      last.player = after.player ∧ last.requests = avatar.requests ++ after.requests := by
  have hsame : Avatar.behind { player := avatar.player } avatar.requests = avatar := by
    rw [Avatar.behind, List.append_nil]
  have hstep := handle_behind avatar.requests { player := avatar.player } message
  rw [hsame, hafter] at hstep
  refine ⟨after.behind avatar.requests, ?_, rfl, rfl⟩
  rw [exec, List.foldl_append]
  rw [exec] at hrun
  rw [hrun]
  exact hstep

theorem recorded_kept (h : s.Recorded) (hhandled : s'.handled = s.handled)
    (hnext : s'.next = s.next) (hplayers : s'.players = s.players) : s'.Recorded := by
  refine ⟨?_, ?_⟩
  · intro address player hplayer
    rw [hplayers] at hplayer
    rw [history_of_handled_eq hhandled]
    exact h.run hplayer
  · rw [hhandled, hnext]
    exact h.past

theorem recorded_created (h : s.Recorded) (hhandled : s'.handled = s.handled)
    (hnext : s'.next = s.next + 1)
    (hplayers : s'.players = Function.update s.players s.next (some newcomer.player)) :
    s'.Recorded := by
  refine ⟨?_, ?_⟩
  · intro address player hplayer
    rw [hplayers] at hplayer
    rw [history_of_handled_eq hhandled]
    by_cases hnew : address = s.next
    · rw [hnew, Function.update_self] at hplayer
      obtain rfl := Option.some.inj hplayer
      have hempty : s.history address = [] :=
        Tagged.own_eq_nil fun entry hentry => hnew ▸ Nat.ne_of_lt (h.past entry hentry)
      exact ⟨newcomer, by rw [hempty]; rfl, rfl⟩
    · rw [Function.update_of_ne hnew] at hplayer
      exact h.run hplayer
  · rw [hhandled, hnext]
    exact fun entry hentry => Nat.lt_succ_of_lt (h.past entry hentry)

theorem recorded_deleted {gone : ℕ} (h : s.Recorded) (hhandled : s'.handled = s.handled)
    (hnext : s'.next = s.next) (hplayers : s'.players = Function.update s.players gone none) :
    s'.Recorded := by
  refine ⟨?_, ?_⟩
  · intro address player hplayer
    rw [hplayers] at hplayer
    rw [history_of_handled_eq hhandled]
    by_cases hgone : address = gone
    · rw [hgone, Function.update_self] at hplayer
      cases hplayer
    · rw [Function.update_of_ne hgone] at hplayer
      exact h.run hplayer
  · rw [hhandled, hnext]
    exact h.past

theorem recorded_event {instanceId : UInt8} (h : s.Recorded) (hhandled : s'.handled = s.handled)
    (heffect : EventEffect s instanceId s') : s'.Recorded := by
  cases heffect with
  | kept hnext hplayers hfiled => exact recorded_kept h hhandled hnext hplayers
  | created connectID peer hnext hplayers hfree hfiled =>
    exact recorded_created h hhandled hnext hplayers
  | deleted connectID gone hnext hplayers hfound hfiled =>
    exact recorded_deleted h hhandled hnext hplayers

/-- A text of a known player that the worker has handled. -/
theorem past_append {address : ℕ} {message : Message} (h : s.Recorded) (hnext : s'.next = s.next)
    (haddress : address < s.next) (hhandled : s'.handled = s.handled ++ [(address, message)]) :
    ∀ entry ∈ s'.handled, entry.1 < s'.next := by
  intro entry hentry
  rw [hhandled] at hentry
  rw [hnext]
  rcases List.mem_append.mp hentry with hold | hnew
  · exact h.past entry hold
  · rw [List.mem_singleton.mp hnew]
    exact haddress

theorem recorded_poll {globals : Globals} (h : s.Recorded) (hknown : s.Known)
    (heffect : PollEffect s globals s') : s'.Recorded := by
  cases heffect with
  | idle hempty hsame => rwa [hsame]
  | ignored data hfront hdeleted hignores hpool hnext hqueue hplayers hhandled =>
    have hhistory := history_append hhandled
    refine ⟨?_, past_append h hnext (hknown data (List.mem_of_mem_head? hfront)) hhandled⟩
    intro address current hcurrent
    rw [hplayers] at hcurrent
    have hother : address ≠ data.pAvatar.address := by
      intro heq
      rw [heq, hdeleted] at hcurrent
      cases hcurrent
    rw [hhistory, if_neg hother]
    exact h.run hcurrent
  | handled data player after hfront halive hafter hpool hnext hqueue hplayers hhandled =>
    have hhistory := history_append hhandled
    refine ⟨?_, past_append h hnext (hknown data (List.mem_of_mem_head? hfront)) hhandled⟩
    intro address current hcurrent
    rw [hplayers] at hcurrent
    rw [hhistory]
    by_cases haddress : address = data.pAvatar.address
    · rw [haddress, Function.update_self] at hcurrent
      obtain rfl := Option.some.inj hcurrent
      rw [if_pos haddress, haddress]
      obtain ⟨avatar, hrun, rfl⟩ := h.run halive
      obtain ⟨last, hlast, hplayer, -⟩ := run_append hrun hafter
      exact ⟨last, hlast, hplayer⟩
    · rw [Function.update_of_ne haddress] at hcurrent
      rw [if_neg haddress]
      exact h.run hcurrent

/-- The player that a packet is from, and the text in it. -/
def textsIn (playerPool : PlayerPool) : ENetEvent → List (PlayerPtr × Bytes)
  | .receive _ connectID packet =>
    if acceptsLength packet ∧ isText packet then
      (playerPool.getPlayer connectID).toList.map fun player => (player, packetText packet)
    else []
  | _ => []

theorem queued_eq (instanceId : UInt8) (playerPool : PlayerPool) (next : ℕ) (event : ENetEvent) :
    (GrowServer.handleEvent instanceId playerPool next event).queued =
      (textsIn playerPool event).map fun entry => textEvent instanceId entry.1 entry.2 := by
  cases event with
  | none => rfl
  | connect peer connectID =>
    cases hplayer : playerPool.getPlayer connectID with
    | none =>
      rw [handleEvent_connect_none _ _ _ hplayer]
      rfl
    | some player =>
      rw [handleEvent_connect_some _ _ _ hplayer]
      rfl
  | disconnect peer connectID =>
    cases hplayer : playerPool.getPlayer connectID with
    | none =>
      rw [handleEvent_disconnect_none _ _ _ hplayer]
      rfl
    | some player =>
      rw [handleEvent_disconnect_some _ _ _ hplayer]
      rfl
  | receive peer connectID packet =>
    rw [(handleEvent_receive instanceId playerPool next peer connectID packet).2, textsIn]
    split
    · rw [List.map_map]
      rfl
    · rfl

theorem fromText_queued (instanceId : UInt8) (playerPool : PlayerPool) (next : ℕ)
    {event : ENetEvent} {data : EventData}
    (h : data ∈ (GrowServer.handleEvent instanceId playerPool next event).queued) :
    FromText data := by
  rw [queued_eq] at h
  obtain ⟨entry, -, rfl⟩ := List.mem_map.mp h
  exact ⟨rfl, rfl⟩

theorem foldl_addQueue_m_data (queued : List EventData) (pool : EventPool EventFunction) :
    (queued.foldl EventPool.addQueue pool).m_data = pool.m_data := by
  induction queued generalizing pool with
  | nil => rfl
  | cons data queued ih => exact (ih _).trans rfl

theorem queued_added {queued : List EventData} (h : s.Queued)
    (hpool : s'.eventPool = queued.foldl EventPool.addQueue s.eventPool)
    (hqueued : ∀ data ∈ queued, FromText data) : s'.Queued := by
  refine ⟨?_, ?_⟩
  · rw [hpool, foldl_addQueue_m_data]
    exact h.m_data
  · intro data hdata
    rw [hpool, Threads.addQueue_foldl] at hdata
    rcases List.mem_append.mp hdata with hold | hnew
    · exact h.texts data hold
    · exact hqueued data hnew

theorem queued_event (h : s.Queued) (instanceId : UInt8) (event : ENetEvent) :
    (s.onEvent instanceId event).Queued := by
  have hadded : (s.onEvent instanceId event).eventPool =
      (s.serverPool.handleEvent instanceId s.next event).2.1.foldl EventPool.addQueue s.eventPool :=
    rfl
  refine queued_added h hadded ?_
  intro data hdata
  cases hserver : s.serverPool.m_servers.lookup instanceId with
  | none =>
    rw [s.serverPool.handleEvent_none s.next event hserver] at hdata
    cases hdata
  | some server =>
    rw [s.serverPool.queued_handleEvent s.next event hserver] at hdata
    exact fromText_queued instanceId _ s.next hdata

theorem queued_poll {globals : Globals} (h : s.Queued)
    (hstep : s.step (.servicePoll globals) = .ok s') : s'.Queued := by
  have heffect := servicePoll_effect h.m_data h.texts hstep
  have hm_data : s'.eventPool.m_data = s.eventPool.m_data := by
    cases hpoll : s.eventPool.servicePoll with
    | mk dispatch eventPool =>
      simp only [step, hpoll] at hstep
      cases dispatch with
      | none => rw [← Except.ok.inj hstep]
      | some dispatch =>
        have hsame := (servicePoll_queue hpoll).1
        simp only [onDispatch] at hstep
        split at hstep
        · split at hstep
          · cases hstep
          · cases hstep
          · rw [← Except.ok.inj hstep]
            exact hsame
        · split at hstep
          · cases hstep
          · rw [← Except.ok.inj hstep]
            exact hsame
  refine ⟨hm_data.trans h.m_data, ?_⟩
  cases heffect with
  | idle hempty hsame =>
    rw [hsame]
    exact h.texts
  | ignored data hfront hdeleted hignores hpool hnext hqueue hplayers hhandled =>
    exact fun other hother => h.texts other (hqueue other hother)
  | handled data player after hfront halive hafter hpool hnext hqueue hplayers hhandled =>
    exact fun other hother => h.texts other (hqueue other hother)

/-- An event queues texts of players that are filed, and takes no address back. -/
theorem known_event (h : s.Known) (howned : s.Owned) (instanceId : UInt8) (event : ENetEvent) :
    (s.onEvent instanceId event).Known := by
  have hnext : s.next ≤ (s.onEvent instanceId event).next := by
    cases s.onEvent_effect instanceId event with
    | kept hnext hplayers hfiled => omega
    | created connectID peer hnext hplayers hfree hfiled => omega
    | deleted connectID player hnext hplayers hfound hfiled => omega
  have hqueue : (s.onEvent instanceId event).eventPool.m_workerQueue =
      s.eventPool.m_workerQueue ++ (s.serverPool.handleEvent instanceId s.next event).2.1 :=
    Threads.addQueue_foldl _ _
  intro data hdata
  refine Nat.lt_of_lt_of_le ?_ hnext
  rw [hqueue] at hdata
  rcases List.mem_append.mp hdata with hold | hnew
  · exact h data hold
  cases hserver : s.serverPool.m_servers.lookup instanceId with
  | none =>
    rw [s.serverPool.handleEvent_none s.next event hserver] at hnew
    cases hnew
  | some server =>
    rw [s.serverPool.queued_handleEvent s.next event hserver] at hnew
    obtain ⟨-, connectID, hplayer, -⟩ := mem_queued instanceId _ _ hnew
    have halive := howned.alive (i := instanceId) (c := connectID) hplayer
    by_contra hlarge
    rw [howned.fresh (Nat.not_lt.mp hlarge)] at halive
    cases halive

theorem known_poll {globals : Globals} (h : s.Known) (heffect : PollEffect s globals s') :
    s'.Known := by
  cases heffect with
  | idle hempty hsame => rwa [hsame]
  | ignored data hfront hdeleted hignores hpool hnext hqueue hplayers hhandled =>
    exact fun other hother => hnext ▸ h other (hqueue other hother)
  | handled data player after hfront halive hafter hpool hnext hqueue hplayers hhandled =>
    exact fun other hother => hnext ▸ h other (hqueue other hother)

theorem reachable_step (h : s.Reachable) {a : SystemAction} (hstep : s.step a = .ok s') :
    s'.Reachable := by
  cases a with
  | event instanceId event =>
    obtain rfl := Except.ok.inj hstep
    have heffect := s.onEvent_effect instanceId event
    exact ⟨queued_event h.queued instanceId event, owned_event h.owned heffect,
      recorded_event h.recorded rfl heffect, known_event h.known h.owned instanceId event⟩
  | servicePoll globals =>
    have heffect := servicePoll_effect h.queued.m_data h.queued.texts hstep
    exact ⟨queued_poll h.queued hstep, owned_poll h.owned heffect,
      recorded_poll h.recorded h.known heffect, known_poll h.known heffect⟩

end Invariant

/-- Instances are running, and no player is connected yet. -/
def NoPlayers (serverPool : ServerPool) : Prop :=
  ∀ i c, (serverPool.getPlayerPool i).getPlayer c = none

theorem reachable_start {serverPool : ServerPool} (h : NoPlayers serverPool) :
    (start serverPool).Reachable where
  queued := ⟨rfl, fun data hdata => by cases hdata⟩
  owned := by
    have hempty (i : UInt8) (c : UInt32) : (start serverPool).filed i c = none := h i c
    refine ⟨?_, ?_, ?_, fun _ => rfl⟩
    · intro i c player hplayer
      rw [hempty] at hplayer
      cases hplayer
    · intro i c i' c' player player' hplayer
      rw [hempty] at hplayer
      cases hplayer
    · intro address hsome
      exact absurd hsome Bool.false_ne_true
  recorded := by
    refine ⟨?_, fun entry hentry => by cases hentry⟩
    intro address player hplayer
    exact absurd hplayer.symm (Option.some_ne_none player)
  known data hdata := by cases hdata

theorem reachable_run {serverPool : ServerPool} {actions : List SystemAction} {s : System}
    (hempty : NoPlayers serverPool)
    (hrun : exec (untilFailure step) (.ok (start serverPool)) actions = .ok s) : s.Reachable := by
  have hstart : Reached (ε := SystemFault) Reachable (.ok (start serverPool)) := by
    intro t ht
    rw [← Except.ok.inj ht]
    exact reachable_start hempty
  exact reached_exec actions hstart (fun _ _ _ h hstep => reachable_step h hstep) s hrun

/-! ### What holds of every run -/

/-- One instance, as the program starts it. -/
def oneServer : ServerPool := (({} : ServerPool).startInstance true).2

theorem noPlayers_oneServer : NoPlayers oneServer := by
  intro i c
  have hpool : oneServer.getPlayerPool i = {} := by
    have hservers : oneServer.m_servers = AList.insert 0 { port := basePort } ∅ := rfl
    rw [ServerPool.getPlayerPool, hservers]
    by_cases hi : i = 0
    · rw [hi, AList.lookup_insert]
      rfl
    · rw [AList.lookup_insert_ne hi]
      rfl
  rw [hpool]
  rfl

/-- In every interleaving of the network thread and the worker, the players in memory are
those of the pools, each filed once on one instance: none is lost, shared or deleted twice. -/
theorem players_owned {serverPool : ServerPool} {actions : List SystemAction} {s : System}
    (hempty : NoPlayers serverPool)
    (hrun : exec (untilFailure step) (.ok (start serverPool)) actions = .ok s) : s.Owned :=
  (reachable_run hempty hrun).owned

def helloText : ENetPacket := ⟨0, [2, 0, 0, 0, 97, 99, 116, 105, 111, 110, 124, 120, 0]⟩

/-- Two players, of whom the first sends an action and disconnects under the other's id. -/
def twoPlayers : List SystemAction :=
  [.event 0 (.connect 1 7), .event 0 (.receive 1 7 helloText), .event 0 (.connect 2 8),
    .servicePoll ⟨{}, none⟩, .event 0 (.disconnect 1 8)]

theorem run_twoPlayers :
    ∃ s, exec (untilFailure step) (.ok (start oneServer)) twoPlayers = .ok s := ⟨_, rfl⟩

theorem players_owned_twoPlayers :
    ∃ s, exec (untilFailure step) (.ok (start oneServer)) twoPlayers = .ok s ∧ s.Owned := by
  obtain ⟨s, hrun⟩ := run_twoPlayers
  exact ⟨s, hrun, players_owned noPlayers_oneServer hrun⟩

/-- In every interleaving, each player is what its own texts make of a new player, in the
order in which they were dispatched: no other player, instance or event has a part in it. -/
theorem players_isolated {serverPool : ServerPool} {actions : List SystemAction} {s : System}
    (hempty : NoPlayers serverPool)
    (hrun : exec (untilFailure step) (.ok (start serverPool)) actions = .ok s)
    {address : ℕ} {player : Player} (hplayer : s.players address = some player) :
    ∃ avatar, exec (untilFailure Worker.handle) (.ok newcomer) (s.history address) = .ok avatar ∧
      avatar.player = player :=
  (reachable_run hempty hrun).recorded.run hplayer

theorem players_isolated_twoPlayers :
    ∃ s player avatar, exec (untilFailure step) (.ok (start oneServer)) twoPlayers = .ok s ∧
      s.players 0 = some player ∧
      exec (untilFailure Worker.handle) (.ok newcomer) (s.history 0) = .ok avatar ∧
      avatar.player = player := by
  obtain ⟨s, hrun⟩ := run_twoPlayers
  have hsome : (exec (untilFailure step) (.ok (start oneServer)) twoPlayers).toOption.any
      fun s => (s.players 0).isSome := rfl
  rw [hrun] at hsome
  obtain ⟨player, hplayer⟩ := Option.isSome_iff_exists.mp hsome
  obtain ⟨avatar, hexec, hsame⟩ := players_isolated noPlayers_oneServer hrun hplayer
  exact ⟨s, player, avatar, hrun, hplayer, hexec, hsame⟩

theorem holdsStarters_of_recorded {s : System} (h : s.Recorded) {address : ℕ} {player : Player}
    (hplayer : s.players address = some player) : HoldsStarters player := by
  obtain ⟨avatar, hrun, rfl⟩ := h.run hplayer
  exact Worker.invariant_of_effect (create_eq {}) Worker.holdsStarters_newcomer
    holdsStarters_effect hrun

end System

end GrowServer
