import GrowServer.Server.Lifecycle
import GrowServer.Server.System

/-!
# The whole process (Server/ServerPool.cpp, Player/PlayerPool.cpp, Event/EventPool.cpp)

The console thread, the network thread and the worker over one memory of players. Instances
come and go while the worker handles what they have queued; a text keeps the pointer to its
player, whatever has become of the instance it came from. As in the running server, an address
is handed out once, and a use of a deleted player ends the run.
-/

namespace GrowServer
open RunLogic
open scoped List

structure Process where
  instances : Instances := {}
  eventPool : EventPool EventFunction := { m_data := textEvents }
  players : ℕ → Option Player := fun _ => none
  handled : List (ℕ × Message) := []

inductive ProcessAction where
  | instances (action : InstanceAction)
  | servicePoll (globals : Globals)

/-- The server that is being polled, under its id. -/
def Instances.polled (this : Instances) : Option (UInt8 × ServerObject) :=
  this.snapshot.head?.bind fun entry => this.objects[entry.2]?.map (Prod.mk entry.1)

namespace Process

/-- The memory behind an event of a server, where `next` is the next free address after it. -/
def playersAfter (s : Process) (playerPool : PlayerPool) (next : ℕ) :
    ENetEvent → ℕ → Option Player
  | .connect _ _ =>
    if s.instances.next < next then
      Function.update s.players s.instances.next (some newcomer.player)
    else s.players
  | .disconnect _ connectID => System.delete s.players (playerPool.getPlayer connectID)
  | _ => s.players

def onEvent (s : Process) (event : ENetEvent) : Process :=
  match s.instances.polled with
  | none => s
  | some (instanceId, object) =>
    let handled := handleEvent instanceId object.playerPool s.instances.next event
    { s with
      instances := s.instances.onEvent event
      eventPool := handled.queued.foldl EventPool.addQueue s.eventPool
      players := s.playersAfter object.playerPool handled.next event }

/-- What the worker sees of the process: no instance has a part in what it does. -/
def worker (s : Process) : System where
  serverPool := {}
  eventPool := s.eventPool
  next := s.instances.next
  players := s.players
  handled := s.handled

def withWorker (s : Process) (worker : System) : Process :=
  { s with eventPool := worker.eventPool, players := worker.players, handled := worker.handled }

def step (s : Process) : ProcessAction → Except SystemFault Process
  | .instances (.event event) => .ok (s.onEvent event)
  | .instances action => .ok { s with instances := s.instances.step action }
  | .servicePoll globals => (s.worker.step (.servicePoll globals)).map s.withWorker

/-! ### What each party does to the memory -/

/-- The memory stays as it is, a new player is in it, or one is deleted. -/
inductive MemoryEffect (s s' : Process) : Prop where
  | kept (hnext : s'.instances.next = s.instances.next)
    (hfreed : s'.instances.freed = s.instances.freed) (hplayers : s'.players = s.players)
  | created (hnext : s'.instances.next = s.instances.next + 1)
    (hfreed : s'.instances.freed = s.instances.freed)
    (hplayers : s'.players =
      Function.update s.players s.instances.next (some newcomer.player))
  | deleted (address : ℕ) (hnext : s'.instances.next = s.instances.next)
    (hfreed : s'.instances.freed = s.instances.freed ++ [address])
    (hplayers : s'.players = Function.update s.players address none)

section Events
variable (s : Process) (event : ENetEvent)

theorem onEvent_idle (h : s.instances.polled = none) : s.onEvent event = s := by
  unfold onEvent
  rw [h]

theorem onEvent_polled {instanceId : UInt8} {object : ServerObject}
    (h : s.instances.polled = some (instanceId, object)) :
    ∃ k, s.instances.objects[k]? = some object ∧ s.onEvent event =
      { s with
        instances := s.instances.serve instanceId k object event
        eventPool := (handleEvent instanceId object.playerPool s.instances.next
          event).queued.foldl EventPool.addQueue s.eventPool
        players := s.playersAfter object.playerPool
          (handleEvent instanceId object.playerPool s.instances.next event).next event } := by
  obtain ⟨entry, hentry, hobject⟩ := Option.bind_eq_some_iff.mp h
  obtain ⟨found, hfound, hpair⟩ := Option.map_eq_some_iff.mp hobject
  obtain ⟨rfl, rfl⟩ := Prod.mk.inj hpair
  obtain ⟨rest, hsnapshot⟩ := List.head?_eq_some_iff.mp hentry
  refine ⟨entry.2, hfound, ?_⟩
  have hserve : s.instances.onEvent event = s.instances.serve entry.1 entry.2 found event := by
    simp only [Instances.onEvent, hsnapshot, hfound]
  simp only [onEvent, h, hserve]

theorem onEvent_memory : MemoryEffect s (s.onEvent event) := by
  cases hpolled : s.instances.polled with
  | none =>
    rw [onEvent_idle s event hpolled]
    exact .kept rfl rfl rfl
  | some entry =>
    obtain ⟨instanceId, object⟩ := entry
    obtain ⟨k, -, hevent⟩ := onEvent_polled s event hpolled
    rw [hevent]
    have hnothing {deleted : List ℕ} (h : deleted = []) :
        s.instances.freed ++ deleted = s.instances.freed := by
      rw [h, List.append_nil]
    cases event with
    | none => exact .kept rfl (hnothing rfl) rfl
    | receive peer connectID packet =>
      exact .kept (next_receive instanceId object.playerPool _ peer connectID packet)
        (hnothing rfl) rfl
    | connect peer connectID =>
      cases hfound : object.playerPool.getPlayer connectID with
      | some player =>
        refine .kept ?_ (hnothing rfl) ?_
        · simp only [Instances.serve, handleEvent_connect_some _ _ _ hfound]
        · simp only [playersAfter, handleEvent_connect_some _ _ _ hfound, Nat.lt_irrefl, if_false]
      | none =>
        refine .created ?_ (hnothing rfl) ?_
        · simp only [Instances.serve, handleEvent_connect_none _ _ _ hfound]
        · simp only [playersAfter, handleEvent_connect_none _ _ _ hfound, Nat.lt_succ_self,
            if_true]
    | disconnect peer connectID =>
      cases hfound : object.playerPool.getPlayer connectID with
      | none =>
        refine .kept ?_ (hnothing ?_) ?_
        · simp only [Instances.serve, handleEvent_disconnect_none _ _ _ hfound]
        · rw [deletedBy, hfound]
          rfl
        · simp only [playersAfter, hfound, System.delete]
      | some player =>
        refine .deleted player.address ?_ ?_ ?_
        · simp only [Instances.serve, handleEvent_disconnect_some _ _ _ hfound]
        · simp only [Instances.serve, deletedBy, hfound]
          rfl
        · simp only [playersAfter, hfound, System.delete]

end Events

theorem instances_frame (instances : Instances) {action : InstanceAction}
    (h : ∀ event, action ≠ .event event) :
    (instances.step action).next = instances.next ∧
      (instances.step action).freed = instances.freed := by
  cases action with
  | event event => exact absurd rfl (h event)
  | startInstance initOk =>
    cases initOk with
    | false => exact ⟨rfl, rfl⟩
    | true => exact ⟨rfl, rfl⟩
  | stopInstance instanceId =>
    show (instances.stopInstance instanceId).2.next = _ ∧
      (instances.stopInstance instanceId).2.freed = _
    rw [Instances.objects_stopInstance]
    exact ⟨rfl, rfl⟩
  | getServers =>
    simp only [Instances.step]
    split
    · exact ⟨rfl, rfl⟩
    · exact ⟨rfl, rfl⟩
  | nextServer => exact ⟨rfl, rfl⟩

/-! ### Every reachable state -/

/-- Memory holds the players that were handed out and not deleted since; what is queued is of
players that were handed out; and each player is what its own texts made of it. -/
structure Sound (s : Process) : Prop where
  accounted : s.instances.Accounted
  alive : ∀ address, (s.players address).isSome ↔
    address < s.instances.next ∧ address ∉ s.instances.freed
  queued : s.worker.Queued
  recorded : s.worker.Recorded
  known : ∀ data ∈ s.eventPool.m_workerQueue, data.pAvatar.address < s.instances.next

theorem freed_lt {instances : Instances} (h : instances.Accounted) {address : ℕ}
    (haddress : address ∈ instances.freed ++ instances.filed) : address < instances.next :=
  List.mem_range.mp (h.mem_iff.mp haddress)

section Invariant
variable {s s' : Process}

theorem alive_memory (haccounted : s.instances.Accounted)
    (h : ∀ address, (s.players address).isSome ↔
      address < s.instances.next ∧ address ∉ s.instances.freed)
    (heffect : MemoryEffect s s') (address : ℕ) :
    (s'.players address).isSome ↔
      address < s'.instances.next ∧ address ∉ s'.instances.freed := by
  cases heffect with
  | kept hnext hfreed hplayers =>
    rw [hnext, hfreed, hplayers]
    exact h address
  | created hnext hfreed hplayers =>
    rw [hnext, hfreed, hplayers]
    by_cases hnew : address = s.instances.next
    · have hfresh : s.instances.next ∉ s.instances.freed := fun hmem =>
        Nat.lt_irrefl _ (freed_lt haccounted (List.mem_append_left _ hmem))
      rw [hnew, Function.update_self]
      exact iff_of_true rfl ⟨Nat.lt_succ_self _, hfresh⟩
    · rw [Function.update_of_ne hnew, h address]
      exact and_congr_left fun _ => by omega
  | deleted gone hnext hfreed hplayers =>
    rw [hnext, hfreed, hplayers]
    by_cases hgone : address = gone
    · rw [hgone, Function.update_self]
      refine iff_of_false Bool.false_ne_true ?_
      intro hlive
      exact hlive.2 (List.mem_append_right _ (List.mem_singleton_self _))
    · rw [Function.update_of_ne hgone, h address, List.mem_append, List.mem_singleton]
      simp only [hgone, or_false]

theorem recorded_memory (h : s.worker.Recorded) (hhandled : s'.handled = s.handled)
    (heffect : MemoryEffect s s') : s'.worker.Recorded := by
  cases heffect with
  | kept hnext hfreed hplayers => exact System.recorded_kept h hhandled hnext hplayers
  | created hnext hfreed hplayers => exact System.recorded_created h hhandled hnext hplayers
  | deleted gone hnext hfreed hplayers => exact System.recorded_deleted h hhandled hnext hplayers

theorem next_le_of_memory (h : MemoryEffect s s') : s.instances.next ≤ s'.instances.next := by
  cases h with
  | kept hnext => omega
  | created hnext => omega
  | deleted gone hnext => omega

/-- A text is queued of a player that is filed. -/
theorem known_queued (haccounted : s.instances.Accounted) {instanceId : UInt8} {k : ℕ}
    {object : ServerObject} (hobject : s.instances.objects[k]? = some object) {event : ENetEvent}
    {data : EventData}
    (h : data ∈ (handleEvent instanceId object.playerPool s.instances.next event).queued) :
    data.pAvatar.address < s.instances.next := by
  obtain ⟨-, connectID, hplayer, -⟩ := mem_queued instanceId object.playerPool _ h
  have hmem : data.pAvatar ∈ object.playerPool.getPlayers :=
    (object.playerPool.mem_getPlayers _).mpr ⟨connectID, hplayer⟩
  refine freed_lt haccounted (List.mem_append_right _ ?_)
  exact List.mem_flatMap.mpr ⟨object, List.mem_of_getElem? hobject, List.mem_map_of_mem hmem⟩

theorem sound_onEvent (h : s.Sound) (event : ENetEvent) : (s.onEvent event).Sound := by
  have hmemory := s.onEvent_memory event
  cases hpolled : s.instances.polled with
  | none => rwa [onEvent_idle s event hpolled]
  | some entry =>
    obtain ⟨instanceId, object⟩ := entry
    obtain ⟨k, hobject, hevent⟩ := onEvent_polled s event hpolled
    have hqueue : (s.onEvent event).eventPool = (handleEvent instanceId object.playerPool
        s.instances.next event).queued.foldl EventPool.addQueue s.eventPool := by
      rw [hevent]
    refine ⟨?_, alive_memory h.accounted h.alive hmemory, ?_, ?_, ?_⟩
    · rw [hevent]
      exact Instances.accounted_serve h.accounted hobject event
    · exact System.queued_added h.queued hqueue fun data hdata =>
        System.fromText_queued instanceId _ _ hdata
    · exact recorded_memory h.recorded (by rw [hevent]) hmemory
    · intro data hdata
      refine Nat.lt_of_lt_of_le ?_ (next_le_of_memory hmemory)
      rw [hqueue, Threads.addQueue_foldl] at hdata
      rcases List.mem_append.mp hdata with hold | hnew
      · exact h.known data hold
      · exact known_queued h.accounted hobject hnew

theorem sound_instances (h : s.Sound) {action : InstanceAction}
    (haction : ∀ event, action ≠ .event event) :
    Sound { s with instances := s.instances.step action } := by
  obtain ⟨hnext, hfreed⟩ := instances_frame s.instances haction
  have hmemory : MemoryEffect s { s with instances := s.instances.step action } :=
    .kept hnext hfreed rfl
  exact ⟨Instances.accounted_step h.accounted action, alive_memory h.accounted h.alive hmemory,
    ⟨h.queued.m_data, h.queued.texts⟩, recorded_memory h.recorded rfl hmemory,
    fun data hdata => hnext ▸ h.known data hdata⟩

theorem sound_worker (h : s.Sound) {globals : Globals} {worker : System}
    (hstep : s.worker.step (.servicePoll globals) = .ok worker) : (s.withWorker worker).Sound := by
  have heffect := System.servicePoll_effect h.queued.m_data h.queued.texts hstep
  have hqueued := System.queued_poll h.queued hstep
  have hrecorded := System.recorded_poll h.recorded h.known heffect
  have hpast (hnext : worker.next = s.instances.next) (entry : ℕ × Message)
      (hentry : entry ∈ worker.handled) : entry.1 < s.instances.next := by
    have hlt := hrecorded.past entry hentry
    rwa [hnext] at hlt
  cases heffect with
  | idle hempty hsame =>
    rw [hsame]
    exact h
  | ignored data hfront hdeleted hignores hpool hnext hqueue hplayers hhandled =>
    have halive (address : ℕ) : ((s.withWorker worker).players address).isSome ↔
        address < s.instances.next ∧ address ∉ s.instances.freed := by
      show (worker.players address).isSome ↔ _
      rw [hplayers]
      exact h.alive address
    exact ⟨h.accounted, halive, ⟨hqueued.m_data, hqueued.texts⟩,
      ⟨hrecorded.run, hpast hnext⟩,
      fun other hother => h.known other (hqueue other hother)⟩
  | handled data player after hfront halive hafter hpool hnext hqueue hplayers hhandled =>
    refine ⟨h.accounted, ?_, ⟨hqueued.m_data, hqueued.texts⟩, ⟨hrecorded.run, hpast hnext⟩,
      fun other hother => h.known other (hqueue other hother)⟩
    intro address
    show (worker.players address).isSome ↔
      address < s.instances.next ∧ address ∉ s.instances.freed
    rw [hplayers, ← h.alive address]
    by_cases haddress : address = data.pAvatar.address
    · rw [haddress, Function.update_self]
      exact iff_of_true rfl (Option.isSome_iff_exists.mpr ⟨player, halive⟩)
    · rw [Function.update_of_ne haddress]
      exact Iff.rfl

/-- A step of the console or the network thread: an event, or something about the instances. -/
theorem step_instances_cases {action : InstanceAction}
    (hstep : s.step (.instances action) = .ok s') :
    (∃ event, action = .event event ∧ s' = s.onEvent event) ∨
      ((∀ event, action ≠ .event event) ∧
        s' = { s with instances := s.instances.step action }) := by
  cases action with
  | event event => exact Or.inl ⟨event, rfl, (Except.ok.inj hstep).symm⟩
  | _ => exact Or.inr ⟨fun event => by simp, (Except.ok.inj hstep).symm⟩

theorem sound_step (h : s.Sound) {action : ProcessAction} (hstep : s.step action = .ok s') :
    s'.Sound := by
  cases action with
  | instances action =>
    rcases step_instances_cases hstep with ⟨event, rfl, rfl⟩ | ⟨haction, rfl⟩
    · exact sound_onEvent h event
    · exact sound_instances h haction
  | servicePoll globals =>
    cases hworker : s.worker.step (.servicePoll globals) with
    | error fault =>
      simp only [step, hworker] at hstep
      cases hstep
    | ok worker =>
      simp only [step, hworker] at hstep
      rw [← Except.ok.inj hstep]
      exact sound_worker h hworker

end Invariant

theorem sound_start : Sound {} where
  accounted := Instances.accounted_start
  alive address := iff_of_false Bool.false_ne_true fun h => absurd h.1 (Nat.not_lt_zero _)
  queued := ⟨rfl, fun data hdata => by cases hdata⟩
  recorded := by
    refine ⟨?_, fun entry hentry => by cases hentry⟩
    intro address player hplayer
    cases hplayer
  known data hdata := by cases hdata

theorem sound_run {actions : List ProcessAction} {s : Process}
    (hrun : exec (untilFailure step) (.ok {}) actions = .ok s) : s.Sound := by
  have hstart : Reached (ε := SystemFault) Sound (.ok {}) := by
    intro t ht
    rw [← Except.ok.inj ht]
    exact sound_start
  exact reached_exec actions hstart (fun _ _ _ h hstep => sound_step h hstep) s hrun

/-! ### What holds of every run -/

theorem mem_filed_iff {instances : Instances} (h : instances.Accounted) (address : ℕ) :
    address ∈ instances.filed ↔ address < instances.next ∧ address ∉ instances.freed := by
  have hnodup : (instances.freed ++ instances.filed).Nodup := h.symm.nodup List.nodup_range
  constructor
  · intro hfiled
    refine ⟨freed_lt h (List.mem_append_right _ hfiled), ?_⟩
    exact fun hfreed => (List.disjoint_of_nodup_append hnodup) hfreed hfiled
  · intro hlive
    have hmem : address ∈ instances.freed ++ instances.filed :=
      h.mem_iff.mpr (List.mem_range.mpr hlive.1)
    exact (List.mem_append.mp hmem).resolve_left hlive.2

/-- In every interleaving of the console, the network thread and the worker, the players in
memory are those filed on the servers there ever were, the stopped ones included; and each is
what its own texts make of a new player, before and after its server was stopped. -/
theorem memory_filed {actions : List ProcessAction} {s : Process}
    (hrun : exec (untilFailure step) (.ok {}) actions = .ok s) (address : ℕ) :
    ((s.players address).isSome ↔ address ∈ s.instances.filed) ∧
      ∀ player, s.players address = some player → ∃ avatar,
        exec (untilFailure Worker.handle) (.ok newcomer) (Tagged.own s.handled address) =
          .ok avatar ∧ avatar.player = player := by
  have hsound := sound_run hrun
  refine ⟨?_, fun player hplayer => hsound.recorded.run hplayer⟩
  rw [hsound.alive, mem_filed_iff hsound.accounted]

/-- A player sends a text, and its server is stopped before the worker takes it. -/
def stoppedMeanwhile : List ProcessAction :=
  [.instances (.startInstance true), .instances .getServers,
    .instances (.event (.connect 1 7)), .instances (.event (.receive 1 7 System.helloText)),
    .instances (.stopInstance 0), .instances .nextServer, .servicePoll ⟨{}, none⟩]

theorem run_stoppedMeanwhile :
    ∃ s, exec (untilFailure step) (.ok {}) stoppedMeanwhile = .ok s := ⟨_, rfl⟩

theorem memory_filed_stoppedMeanwhile :
    ∃ s, exec (untilFailure step) (.ok {}) stoppedMeanwhile = .ok s ∧
      (((s.players 0).isSome ↔ 0 ∈ s.instances.filed) ∧
        ∀ player, s.players 0 = some player → ∃ avatar,
          exec (untilFailure Worker.handle) (.ok newcomer) (Tagged.own s.handled 0) =
            .ok avatar ∧ avatar.player = player) := by
  obtain ⟨s, hrun⟩ := run_stoppedMeanwhile
  exact ⟨s, hrun, memory_filed hrun 0⟩

end Process

end GrowServer
