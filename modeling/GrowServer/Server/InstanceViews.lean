import GrowServer.Lib.Tagged
import GrowServer.Server.Lifecycle

/-!
# What is seen of the instances from outside (Server/ServerPool.cpp)

Of a server its port and the peers that have a player, by connect id. Seen so, each server
goes its own way, and the instances together are the map of servers in which every call and
every event is one step, whatever the copy that the network thread goes through holds on to.
-/

namespace GrowServer
open RunLogic

/-- The peers with a player, by connect id. -/
abbrev Peers := UInt32 → Option ENetPeer

def peersAfter (peers : Peers) : ENetEvent → Peers
  | .connect peer connectID =>
    if (peers connectID).isSome then peers else Function.update peers connectID (some peer)
  | .disconnect _ connectID => Function.update peers connectID none
  | _ => peers

def peersOf (playerPool : PlayerPool) : Peers := fun connectID =>
  (playerPool.getPlayer connectID).map PlayerPtr.m_pPeer

/-- Who has a player after an event follows from who had one, and from nothing else. -/
theorem peersOf_handleEvent (instanceId : UInt8) (playerPool : PlayerPool) (next : ℕ)
    (event : ENetEvent) :
    peersOf (handleEvent instanceId playerPool next event).playerPool =
      peersAfter (peersOf playerPool) event := by
  cases event with
  | none => rfl
  | connect peer connectID =>
    cases hfound : playerPool.getPlayer connectID with
    | some player =>
      have hsome : (peersOf playerPool connectID).isSome := by
        rw [peersOf, hfound]
        rfl
      rw [handleEvent_connect_some instanceId playerPool next hfound, peersAfter, if_pos hsome]
    | none =>
      have hnone : ¬ (peersOf playerPool connectID).isSome := by
        rw [peersOf, hfound]
        exact Bool.false_ne_true
      rw [handleEvent_connect_none instanceId playerPool next hfound, peersAfter, if_neg hnone]
      funext other
      by_cases hother : other = connectID
      · rw [hother, Function.update_self, peersOf, PlayerPool.getPlayer_newPlayer]
        rfl
      · rw [Function.update_of_ne hother, peersOf, PlayerPool.getPlayer_newPlayer_of_ne _ _ hother]
        rfl
  | disconnect peer connectID =>
    cases hfound : playerPool.getPlayer connectID with
    | none =>
      rw [handleEvent_disconnect_none instanceId playerPool next hfound, peersAfter]
      refine (Function.update_eq_self_iff.mpr ?_).symm
      rw [peersOf, hfound]
      rfl
    | some player =>
      rw [handleEvent_disconnect_some instanceId playerPool next hfound, peersAfter]
      funext other
      by_cases hother : other = connectID
      · rw [hother, Function.update_self, peersOf, PlayerPool.getPlayer_removePlayer]
        rfl
      · rw [Function.update_of_ne hother, peersOf, PlayerPool.getPlayer_removePlayer_of_ne _ hother]
        rfl
  | receive peer connectID packet =>
    rw [(handleEvent_receive instanceId playerPool next peer connectID packet).1]
    rfl

namespace Instances

/-! ### A server on its own -/

/-- The events of one server, in order. -/
def eventsOf (s : Instances) (k : ℕ) : List ENetEvent := Tagged.own s.handled k

/-- Each server is what its own events make of an empty one. -/
structure Independent (s : Instances) : Prop where
  peers : ∀ {k object}, s.objects[k]? = some object →
    peersOf object.playerPool = (s.eventsOf k).foldl peersAfter fun _ => none
  past : ∀ entry ∈ s.handled, entry.1 < s.objects.length

theorem independent_serve {s : Instances} (h : s.Independent) (instanceId : UInt8) {k : ℕ}
    {object : ServerObject} (hobject : s.objects[k]? = some object) (event : ENetEvent) :
    (s.serve instanceId k object event).Independent := by
  obtain ⟨hk, -⟩ := List.getElem?_eq_some_iff.mp hobject
  refine ⟨?_, ?_⟩
  · intro l other hother
    have hset : (s.objects.set k (object.withPool (handleEvent instanceId object.playerPool s.next
      event).playerPool))[l]? = some other := hother
    show _ = (Tagged.own (s.handled ++ [(k, event)]) l).foldl peersAfter _
    rw [Tagged.own_concat]
    by_cases hl : l = k
    · subst hl
      rw [List.getElem?_set_self hk] at hset
      obtain rfl := Option.some.inj hset
      have hpeers := h.peers hobject
      rw [if_pos rfl, List.foldl_concat]
      show peersOf (handleEvent instanceId object.playerPool s.next event).playerPool = _
      rw [peersOf_handleEvent, hpeers]
      rfl
    · rw [List.getElem?_set_ne fun heq => hl heq.symm] at hset
      rw [if_neg hl]
      exact h.peers hset
  · intro entry hentry
    show entry.1 < (s.objects.set k _).length
    rw [List.length_set]
    rcases List.mem_append.mp hentry with hold | hnew
    · exact h.past entry hold
    · rwa [List.mem_singleton.mp hnew]

theorem independent_step {s : Instances} (h : s.Independent) (a : InstanceAction) :
    (s.step a).Independent := by
  cases a with
  | startInstance initOk =>
    have hhandled : (s.startInstance initOk).handled = s.handled := by
      cases initOk with
      | false => rfl
      | true => rfl
    refine ⟨?_, ?_⟩
    · intro k object hobject
      show _ = (Tagged.own (s.startInstance initOk).handled k).foldl peersAfter _
      rw [hhandled]
      rcases object_startInstance_cases hobject with hold | ⟨rfl, rfl⟩
      · exact h.peers hold
      · rw [Tagged.own_eq_nil fun entry hentry => Nat.ne_of_lt (h.past entry hentry)]
        rfl
    · show ∀ entry ∈ (s.startInstance initOk).handled, entry.1 <
        (s.startInstance initOk).objects.length
      intro entry hentry
      rw [objects_startInstance, List.length_append]
      exact Nat.lt_add_right _ (h.past entry (hhandled ▸ hentry))
  | stopInstance instanceId =>
    show ((s.stopInstance instanceId).2).Independent
    rw [objects_stopInstance]
    exact ⟨h.peers, h.past⟩
  | getServers =>
    simp only [step]
    split
    · exact ⟨h.peers, h.past⟩
    · exact h
  | event event =>
    show (s.onEvent event).Independent
    rcases s.onEvent_cases event with hsame | ⟨instanceId, k, rest, object, -, hobject, hserve⟩
    · rwa [hsame]
    · rw [hserve]
      exact independent_serve h instanceId hobject event
  | nextServer => exact ⟨h.peers, h.past⟩

/-- Over any run, whose players a server has depends on the events of that server alone, in
their order: not on those of the others, nor on what is started and stopped meanwhile. -/
theorem servers_independent (as : List InstanceAction) {k : ℕ} {object : ServerObject}
    (hobject : (exec step {} as).objects[k]? = some object) :
    peersOf object.playerPool = ((exec step {} as).eventsOf k).foldl peersAfter fun _ => none := by
  have hstart : Independent {} := by
    refine ⟨?_, ?_⟩
    · intro k object hobject
      cases hobject
    · intro entry hentry
      cases hentry
  have hend : (exec step {} as).Independent :=
    exec_invariant as hstart fun _ a h => independent_step h a
  exact hend.peers hobject

theorem servers_independent_stoppedServer :
    ∃ object, (exec step {} stoppedServer).objects[0]? = some object ∧
      peersOf object.playerPool =
        ((exec step {} stoppedServer).eventsOf 0).foldl peersAfter fun _ => none := by
  obtain ⟨object, hobject⟩ : ∃ object, (exec step {} stoppedServer).objects[0]? = some object :=
    ⟨_, rfl⟩
  exact ⟨object, hobject, servers_independent stoppedServer hobject⟩

/-! ### The instances as a map of servers -/

def viewOf (server : Server) : UInt16 × Peers := (server.port, peersOf server.playerPool)

def viewAt (s : Instances) (id : UInt8) : Option (UInt16 × Peers) :=
  (s.m_servers.lookup id).bind fun k => (s.objects[k]?).map fun object => viewOf object.server

/-- The same ids, with the same view of the server under each. -/
structure Views (s : Instances) (t : ServerHistory) : Prop where
  offset : t.pool.serverOffset = s.serverOffset
  size : t.pool.m_servers.entries.length = s.m_servers.entries.length
  servers : ∀ id, (t.pool.m_servers.lookup id).map viewOf = s.viewAt id

/-- The copy refers to objects that exist, and to none that the map has under another id. -/
structure Held (s : Instances) : Prop where
  refers : ∀ entry ∈ s.snapshot, entry.2 < s.objects.length
  once : ∀ entry ∈ s.snapshot, ∀ id, s.m_servers.lookup id = some entry.2 → id = entry.1

/-- A step as it is seen: an event on a server that is stopped already is not. -/
def seen (s : Instances) : InstanceAction → List ServerAction
  | .startInstance initOk => [.startInstance initOk]
  | .stopInstance instanceId => [.stopInstance instanceId]
  | .event event =>
    match s.snapshot with
    | [] => []
    | (instanceId, k) :: _ =>
      if s.m_servers.lookup instanceId = some k then [.event instanceId event] else []
  | _ => []

def seenRun (s : Instances) : List InstanceAction → List ServerAction
  | [] => []
  | a :: as => s.seen a ++ seenRun (s.step a) as

section Simulation
variable {s : Instances} {t : ServerHistory}

theorem held_startInstance (h : s.Held) (initOk : Bool) : (s.startInstance initOk).Held := by
  have hlength : (s.startInstance initOk).objects.length = s.objects.length + 1 := by
    rw [objects_startInstance, List.length_append, List.length_singleton]
  have hsnapshot : (s.startInstance initOk).snapshot = s.snapshot := by
    cases initOk with
    | false => rfl
    | true => rfl
  refine ⟨?_, ?_⟩
  · rw [hsnapshot, hlength]
    exact fun entry hentry => Nat.lt_succ_of_lt (h.refers entry hentry)
  · rw [hsnapshot]
    intro entry hentry id hid
    cases initOk with
    | false => exact h.once entry hentry id hid
    | true =>
      have hinsert : (s.m_servers.insert s.nextInstanceId s.objects.length).lookup id =
        some entry.2 := hid
      by_cases hnew : id = s.nextInstanceId
      · -- the new object is none of those in the copy
        rw [hnew, AList.lookup_insert] at hinsert
        have hlt := h.refers entry hentry
        rw [← Option.some.inj hinsert] at hlt
        exact absurd hlt (Nat.lt_irrefl _)
      · rw [AList.lookup_insert_ne hnew] at hinsert
        exact h.once entry hentry id hinsert

theorem held_step (h : s.Held) (hnumbered : s.Numbered) (a : InstanceAction) : (s.step a).Held := by
  cases a with
  | startInstance initOk => exact held_startInstance h initOk
  | stopInstance instanceId =>
    have honce : ∀ entry ∈ s.snapshot, ∀ id,
        (s.stopInstance instanceId).2.m_servers.lookup id = some entry.2 → id = entry.1 :=
      fun entry hentry id hid => h.once entry hentry id (lookup_stopInstance hid)
    show ((s.stopInstance instanceId).2).Held
    rw [objects_stopInstance]
    exact ⟨h.refers, honce⟩
  | getServers =>
    simp only [step]
    split
    · refine ⟨?_, ?_⟩
      · exact fun entry hentry => hnumbered.refers (lookup_of_mem_getServers hentry)
      · intro entry hentry id hid
        exact hnumbered.distinct hid (lookup_of_mem_getServers hentry)
    · exact h
  | event event =>
    show (s.onEvent event).Held
    rcases s.onEvent_cases event with hsame | ⟨instanceId, k, rest, object, -, -, hserve⟩
    · rwa [hsame]
    · rw [hserve]
      refine ⟨?_, h.once⟩
      intro entry hentry
      show entry.2 < (s.objects.set k _).length
      rw [List.length_set]
      exact h.refers entry hentry
  | nextServer =>
    exact ⟨fun entry hentry => h.refers entry (List.mem_of_mem_tail hentry),
      fun entry hentry => h.once entry (List.mem_of_mem_tail hentry)⟩

theorem viewAt_of_lookup {id k} {object : ServerObject} (hid : s.m_servers.lookup id = some k)
    (hobject : s.objects[k]? = some object) : s.viewAt id = some (viewOf object.server) := by
  simp only [viewAt, hid, Option.bind_some, hobject, Option.map_some]

theorem viewAt_of_none {id : UInt8} (hid : s.m_servers.lookup id = none) : s.viewAt id = none := by
  simp only [viewAt, hid, Option.bind_none]

theorem viewAt_congr {s' : Instances} {id : UInt8}
    (hid : s'.m_servers.lookup id = s.m_servers.lookup id)
    (hobjects : ∀ k, s.m_servers.lookup id = some k → s'.objects[k]? = s.objects[k]?) :
    s'.viewAt id = s.viewAt id := by
  cases hfound : s.m_servers.lookup id with
  | none => rw [viewAt_of_none hfound, viewAt_of_none (hid.trans hfound)]
  | some k => simp only [viewAt, hid, hfound, Option.bind_some, hobjects k hfound]

theorem Views.lookup_eq_none_iff (h : Views s t) (hnumbered : s.Numbered) (id : UInt8) :
    t.pool.m_servers.lookup id = none ↔ s.m_servers.lookup id = none := by
  have hservers := h.servers id
  cases hfound : s.m_servers.lookup id with
  | none =>
    rw [viewAt_of_none hfound, Option.map_eq_none_iff] at hservers
    exact iff_of_true hservers rfl
  | some k =>
    obtain ⟨server, hserver, -⟩ := Option.map_eq_some_iff.mp
      (hservers.trans (viewAt_of_lookup hfound (List.getElem?_eq_getElem (hnumbered.refers hfound))))
    rw [hserver]
    exact iff_of_false (Option.some_ne_none _) (Option.some_ne_none _)

theorem objects_startInstance_of_lookup (hnumbered : s.Numbered) (initOk : Bool) {id k}
    (hid : s.m_servers.lookup id = some k) :
    (s.startInstance initOk).objects[k]? = s.objects[k]? := by
  rw [objects_startInstance, List.getElem?_append_left (hnumbered.refers hid)]

theorem views_startInstance (h : Views s t) (hnumbered : s.Numbered) (initOk : Bool) :
    Views (s.startInstance initOk) (t.step (.startInstance initOk)) := by
  cases initOk with
  | false =>
    refine ⟨congrArg (· + 1) h.offset, h.size, ?_⟩
    intro id
    have hsame : (s.startInstance false).viewAt id = s.viewAt id :=
      viewAt_congr rfl fun k hk => objects_startInstance_of_lookup hnumbered false hk
    rw [hsame]
    exact h.servers id
  | true =>
    have hnext : t.pool.nextInstanceId = s.nextInstanceId := congrArg UInt8.ofNat h.size
    have hport : basePort + t.pool.serverOffset = basePort + s.serverOffset :=
      congrArg (basePort + ·) h.offset
    have hinsert : (t.step (.startInstance true)).pool.m_servers =
        t.pool.m_servers.insert s.nextInstanceId { port := basePort + s.serverOffset } := by
      rw [← hnext, ← hport]
      rfl
    have hinsert' : (s.startInstance true).m_servers =
      s.m_servers.insert s.nextInstanceId s.objects.length := rfl
    refine ⟨congrArg (· + 1) h.offset, ?_, ?_⟩
    · rw [hinsert, hinsert']
      exact Assoc.length_insert_congr _ _ (h.lookup_eq_none_iff hnumbered _) h.size
    · intro id
      by_cases hid : id = s.nextInstanceId
      · have hlast : (s.startInstance true).objects[s.objects.length]? =
            some ⟨{ port := basePort + s.serverOffset }, ENetServer.uniqueId s.idGenerator⟩ := by
          rw [objects_startInstance, List.getElem?_concat_length]
        rw [hid, hinsert, AList.lookup_insert,
          viewAt_of_lookup (hinsert' ▸ AList.lookup_insert _) hlast]
        rfl
      · have hold : (s.startInstance true).m_servers.lookup id = s.m_servers.lookup id :=
          AList.lookup_insert_ne hid
        rw [hinsert, AList.lookup_insert_ne hid, viewAt_congr hold fun k hk =>
          objects_startInstance_of_lookup hnumbered true hk]
        exact h.servers id

theorem views_stopInstance (h : Views s t) (hnumbered : s.Numbered) (instanceId : UInt8) :
    Views (s.stopInstance instanceId).2 (t.step (.stopInstance instanceId)) := by
  show Views _ { t with pool := (t.pool.stopInstance instanceId).2, stopped := _ }
  cases hfound : s.m_servers.lookup instanceId with
  | none =>
    have hnone := (h.lookup_eq_none_iff hnumbered instanceId).mpr hfound
    have hstop : s.stopInstance instanceId = (false, s) := by
      rw [stopInstance, hfound]
      rfl
    have hstop' : t.pool.stopInstance instanceId = (false, t.pool) := by
      rw [ServerPool.stopInstance, hnone]
      rfl
    rw [hstop, hstop']
    exact ⟨h.offset, h.size, h.servers⟩
  | some k =>
    obtain ⟨server, hserver⟩ := Option.ne_none_iff_exists'.mp
      (mt (h.lookup_eq_none_iff hnumbered instanceId).mp
        (fun heq => Option.some_ne_none k (hfound.symm.trans heq)))
    have hstop : s.stopInstance instanceId =
        (true, { s with m_servers := s.m_servers.erase instanceId }) :=
      stopInstance_found (Assoc.mem_of_lookup hfound)
    have hstop' : t.pool.stopInstance instanceId =
        (true, { t.pool with m_servers := t.pool.m_servers.erase instanceId }) := by
      rw [ServerPool.stopInstance, hserver]
      rfl
    rw [hstop, hstop']
    refine ⟨h.offset, ?_, ?_⟩
    · have hlength := Assoc.length_erase_of_mem (Assoc.mem_of_lookup hfound)
      have hlength' := Assoc.length_erase_of_mem (Assoc.mem_of_lookup hserver)
      have hsize := h.size
      show (t.pool.m_servers.erase instanceId).entries.length =
        (s.m_servers.erase instanceId).entries.length
      omega
    · intro id
      show ((t.pool.m_servers.erase instanceId).lookup id).map viewOf = _
      by_cases hid : id = instanceId
      · rw [hid, AList.lookup_erase, viewAt_of_none (AList.lookup_erase _ _)]
        rfl
      · have hkept : ({ s with m_servers := s.m_servers.erase instanceId } : Instances).viewAt id =
            s.viewAt id :=
          viewAt_congr (AList.lookup_erase_ne hid) fun _ _ => rfl
        rw [AList.lookup_erase_ne hid, h.servers id, hkept]

/-- An event on a server that runs is an event of the map. -/
theorem views_serve (h : Views s t) (hnumbered : s.Numbered) {instanceId k} {object : ServerObject}
    (hobject : s.objects[k]? = some object) (hid : s.m_servers.lookup instanceId = some k)
    (event : ENetEvent) :
    Views (s.serve instanceId k object event) (t.step (.event instanceId event)) := by
  obtain ⟨hk, -⟩ := List.getElem?_eq_some_iff.mp hobject
  obtain ⟨server, hserver, hview⟩ :=
    Option.map_eq_some_iff.mp ((h.servers instanceId).trans (viewAt_of_lookup hid hobject))
  obtain ⟨hport, hpeers⟩ := Prod.mk.inj hview
  have hpool : (t.step (.event instanceId event)).pool = { t.pool with
      m_servers := t.pool.m_servers.insert instanceId { server with
        playerPool := (handleEvent instanceId server.playerPool t.next event).playerPool } } := by
    show (t.pool.handleEvent instanceId t.next event).1 = _
    simp only [ServerPool.handleEvent, hserver]
  refine ⟨?_, ?_, ?_⟩
  · rw [hpool]
    exact h.offset
  · rw [hpool]
    exact (Assoc.length_insert_of_mem _ (Assoc.mem_of_lookup hserver)).trans h.size
  · intro id
    rw [hpool]
    by_cases hother : id = instanceId
    · subst hother
      have hset : (s.serve id k object event).objects[k]? = some (object.withPool
          (handleEvent id object.playerPool s.next event).playerPool) :=
        List.getElem?_set_self hk
      have hid' : (s.serve id k object event).m_servers.lookup id = some k := hid
      rw [viewAt_of_lookup hid' hset, AList.lookup_insert]
      show some (server.port, peersOf _) = some (object.server.port, peersOf _)
      rw [hport, peersOf_handleEvent, hpeers]
      congr 2
      exact (peersOf_handleEvent ..).symm
    · have hsame : (s.serve instanceId k object event).viewAt id = s.viewAt id := by
        refine viewAt_congr rfl fun l hl => List.getElem?_set_ne ?_
        exact fun heq => hother (hnumbered.distinct (heq ▸ hl) hid)
      rw [AList.lookup_insert_ne hother, hsame]
      exact h.servers id

/-- An event on a server that is stopped is not seen. -/
theorem views_serve_stopped (h : Views s t) {instanceId k} {object : ServerObject}
    (hstopped : ∀ id, s.m_servers.lookup id ≠ some k) (event : ENetEvent) :
    Views (s.serve instanceId k object event) t := by
  refine ⟨h.offset, h.size, ?_⟩
  intro id
  have hsame : (s.serve instanceId k object event).viewAt id = s.viewAt id := by
    refine viewAt_congr rfl fun l hl => List.getElem?_set_ne ?_
    exact fun heq => hstopped id (heq ▸ hl)
  rw [hsame]
  exact h.servers id

theorem views_onEvent (h : Views s t) (hnumbered : s.Numbered) (hheld : s.Held) (event : ENetEvent) :
    Views (s.onEvent event) (exec ServerHistory.step t (s.seen (.event event))) := by
  cases hsnapshot : s.snapshot with
  | nil =>
    have hseen : s.seen (.event event) = [] := by simp only [seen, hsnapshot]
    have hsame : s.onEvent event = s := by simp only [onEvent, hsnapshot]
    rw [hseen, hsame]
    exact h
  | cons entry rest =>
    obtain ⟨instanceId, k⟩ := entry
    have hmem : (instanceId, k) ∈ s.snapshot := hsnapshot ▸ List.mem_cons_self ..
    obtain ⟨object, hobject⟩ : ∃ object, s.objects[k]? = some object :=
      ⟨_, List.getElem?_eq_getElem (hheld.refers _ hmem)⟩
    have hserve : s.onEvent event = s.serve instanceId k object event := by
      simp only [onEvent, hsnapshot, hobject]
    rw [hserve]
    by_cases hid : s.m_servers.lookup instanceId = some k
    · have hseen : s.seen (.event event) = [.event instanceId event] := by
        simp only [seen, hsnapshot, hid, if_true]
      rw [hseen]
      exact views_serve h hnumbered hobject hid event
    · have hseen : s.seen (.event event) = [] := by
        simp only [seen, hsnapshot, if_neg hid]
      rw [hseen]
      refine views_serve_stopped h ?_ event
      intro id hfound
      obtain rfl := hheld.once _ hmem id hfound
      exact hid hfound

theorem views_step (h : Views s t) (hnumbered : s.Numbered) (hheld : s.Held) (a : InstanceAction) :
    Views (s.step a) (exec ServerHistory.step t (s.seen a)) := by
  cases a with
  | startInstance initOk => exact views_startInstance h hnumbered initOk
  | stopInstance instanceId => exact views_stopInstance h hnumbered instanceId
  | getServers =>
    simp only [step]
    split
    · exact ⟨h.offset, h.size, h.servers⟩
    · exact h
  | event event => exact views_onEvent h hnumbered hheld event
  | nextServer => exact ⟨h.offset, h.size, h.servers⟩

end Simulation

/-- Over any run, what is seen of the instances is what the calls and the events of running
servers make of the map, each in one step and in the same order. -/
theorem instances_seen (as : List InstanceAction) :
    Views (exec step {} as) (exec ServerHistory.step {} (seenRun {} as)) := by
  have hrun : ∀ (as : List InstanceAction) (s : Instances) (t : ServerHistory), Views s t →
      s.Numbered → s.Held → Views (exec step s as) (exec ServerHistory.step t (s.seenRun as)) := by
    intro as
    induction as with
    | nil => exact fun _ _ h _ _ => h
    | cons a as ih =>
      intro s t h hnumbered hheld
      have hnext := ih (s.step a) _ (views_step h hnumbered hheld a) (numbered_step hnumbered a)
        (held_step hheld hnumbered a)
      have happend : exec ServerHistory.step t (s.seen a ++ (s.step a).seenRun as) =
          exec ServerHistory.step (exec ServerHistory.step t (s.seen a)) ((s.step a).seenRun as) :=
        List.foldl_append
      rw [seenRun, happend]
      exact hnext
  refine hrun as {} {} ⟨rfl, rfl, fun _ => rfl⟩ numbered_start ⟨?_, ?_⟩
  · intro entry hentry
    cases hentry
  · intro entry hentry
    cases hentry

end Instances

end GrowServer
