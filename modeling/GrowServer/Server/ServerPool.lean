import GrowServer.Lib.Assoc
import GrowServer.Server.ServicePoll

/-!
# ServerPool (Server/ServerPool.cpp, Server/Server.cpp)

The server instances under their 8-bit ids. The id of a new instance is the number
of running ones. Whether `Server::Init` succeeds is up to the environment.
-/

namespace GrowServer
open RunLogic

structure Server where
  port : UInt16
  playerPool : PlayerPool := {}
  deriving DecidableEq

def Server.getActivePlayers (this : Server) : ℕ := this.playerPool.getActivePlayers

def basePort : UInt16 := 16000

structure ServerPool where
  m_servers : AList (fun _ : UInt8 => Server) := ∅
  serverOffset : UInt16 := 0
  deriving DecidableEq

namespace ServerPool

def nextInstanceId (this : ServerPool) : UInt8 := UInt8.ofNat this.m_servers.entries.length

def startInstance (this : ServerPool) (initOk : Bool) : Option UInt8 × ServerPool :=
  let instanceId := this.nextInstanceId
  let tempPort := basePort + this.serverOffset
  let this := { this with serverOffset := this.serverOffset + 1 }
  if ¬ initOk then (none, this)
  else
    (some instanceId,
      { this with m_servers := this.m_servers.insert instanceId { port := tempPort } })

def stopInstance (this : ServerPool) (instanceId : UInt8) : Bool × ServerPool :=
  if (this.m_servers.lookup instanceId).isNone then (false, this)
  else (true, { this with m_servers := this.m_servers.erase instanceId })

/-- The first instance with at most one player; the order of the map is left open by
the standard library. -/
def findBalanced (this : ServerPool) : Option UInt8 :=
  (this.m_servers.entries.find? fun entry => ¬ entry.2.getActivePlayers > 1).map Sigma.fst

def getBalancedServer (this : ServerPool) (initOk : Bool) : Option UInt8 × ServerPool :=
  match this.findBalanced with
  | some instanceId => (some instanceId, this)
  | none => this.startInstance initOk

def getActiveServers (this : ServerPool) : ℕ := this.m_servers.entries.length

def getActivePlayers (this : ServerPool) : ℕ :=
  (this.m_servers.entries.map fun entry => entry.2.getActivePlayers).sum

def handleEvent (this : ServerPool) (instanceId : UInt8) (next : ℕ) (event : ENetEvent) :
    ServerPool × List EventData × ℕ :=
  match this.m_servers.lookup instanceId with
  | none => (this, [], next)
  | some pServer =>
    let handled := GrowServer.handleEvent instanceId pServer.playerPool next event
    ({ this with m_servers :=
        this.m_servers.insert instanceId { pServer with playerPool := handled.playerPool } },
      handled.queued, handled.next)

def getPlayerPool (this : ServerPool) (instanceId : UInt8) : PlayerPool :=
  ((this.m_servers.lookup instanceId).map Server.playerPool).getD {}

theorem getPlayerPool_of_lookup (this : ServerPool) {instanceId : UInt8} {server : Server}
    (h : this.m_servers.lookup instanceId = some server) :
    this.getPlayerPool instanceId = server.playerPool := by
  rw [getPlayerPool, h]
  rfl

theorem handleEvent_none (this : ServerPool) {instanceId : UInt8} (next : ℕ) (event : ENetEvent)
    (h : this.m_servers.lookup instanceId = none) :
    this.handleEvent instanceId next event = (this, [], next) := by
  simp only [handleEvent, h]

theorem queued_handleEvent (this : ServerPool) {instanceId : UInt8} {server : Server} (next : ℕ)
    (event : ENetEvent) (h : this.m_servers.lookup instanceId = some server) :
    (this.handleEvent instanceId next event).2.1 =
      (GrowServer.handleEvent instanceId (this.getPlayerPool instanceId) next event).queued := by
  rw [this.getPlayerPool_of_lookup h]
  simp only [handleEvent, h]

theorem getPlayerPool_handleEvent (this : ServerPool) {instanceId : UInt8} {server : Server}
    (next : ℕ) (event : ENetEvent) (h : this.m_servers.lookup instanceId = some server)
    (other : UInt8) :
    (this.handleEvent instanceId next event).1.getPlayerPool other =
      if other = instanceId then
        (GrowServer.handleEvent instanceId (this.getPlayerPool instanceId) next event).playerPool
      else this.getPlayerPool other := by
  rw [this.getPlayerPool_of_lookup h]
  simp only [handleEvent, h, getPlayerPool]
  by_cases hother : other = instanceId
  · rw [if_pos hother, hother, AList.lookup_insert]
    rfl
  · rw [if_neg hother, AList.lookup_insert_ne hother]

theorem startInstance_failed (this : ServerPool) :
    (this.startInstance false).2.m_servers = this.m_servers := rfl

theorem startInstance_succeeded (this : ServerPool) :
    (this.startInstance true).2.m_servers =
      this.m_servers.insert this.nextInstanceId { port := basePort + this.serverOffset } := rfl

theorem getActivePlayers_insert (this : ServerPool) (id : UInt8) (server : Server)
    (h : this.m_servers.lookup id = none) (hserver : server.getActivePlayers = 0) :
    ((this.m_servers.insert id server).entries.map fun entry => entry.2.getActivePlayers).sum =
      this.getActivePlayers := by
  rw [AList.entries_insert_of_notMem (AList.lookup_eq_none.mp h), List.map_cons, List.sum_cons,
    hserver, Nat.zero_add]
  rfl

theorem getActiveServers_stopInstance (this : ServerPool) (instanceId : UInt8) :
    (this.stopInstance instanceId).2.getActiveServers + (this.stopInstance instanceId).1.toNat =
      this.getActiveServers := by
  unfold stopInstance getActiveServers
  cases hserver : this.m_servers.lookup instanceId with
  | none => rfl
  | some server => exact Assoc.length_erase_of_mem (Assoc.mem_of_lookup hserver)

theorem getActiveServers_handleEvent (this : ServerPool) (instanceId : UInt8) (next : ℕ)
    (event : ENetEvent) :
    (this.handleEvent instanceId next event).1.getActiveServers = this.getActiveServers := by
  unfold handleEvent getActiveServers
  cases hserver : this.m_servers.lookup instanceId with
  | none => rfl
  | some server => exact Assoc.length_insert_of_mem _ (Assoc.mem_of_lookup hserver)

theorem getActiveServers_startInstance (this : ServerPool) (initOk : Bool)
    (hfree : initOk = true → this.m_servers.lookup this.nextInstanceId = none) :
    (this.startInstance initOk).2.getActiveServers = this.getActiveServers + initOk.toNat := by
  cases initOk with
  | false => rfl
  | true =>
    unfold getActiveServers
    rw [startInstance_succeeded]
    exact Assoc.length_insert_of_lookup_none _ (hfree rfl)

end ServerPool

/-! ### Runs of calls -/

structure ServerHistory where
  pool : ServerPool := {}
  started : ℕ := 0
  stopped : ℕ := 0
  next : ℕ := 0

inductive ServerAction where
  | startInstance (initOk : Bool)
  | stopInstance (instanceId : UInt8)
  | getBalancedServer (initOk : Bool)
  | event (instanceId : UInt8) (event : ENetEvent)

namespace ServerHistory

def startAttempt (s : ServerHistory) : ServerAction → Option Bool
  | .startInstance initOk => some initOk
  | .getBalancedServer initOk => if s.pool.findBalanced.isNone then some initOk else none
  | _ => none

def nextPool (s : ServerHistory) : ServerAction → ServerPool
  | .startInstance initOk => (s.pool.startInstance initOk).2
  | .stopInstance instanceId => (s.pool.stopInstance instanceId).2
  | .getBalancedServer initOk => (s.pool.getBalancedServer initOk).2
  | .event instanceId event => (s.pool.handleEvent instanceId s.next event).1

def step (s : ServerHistory) (a : ServerAction) : ServerHistory where
  pool := s.nextPool a
  started := s.started + ((s.startAttempt a).getD false).toNat
  stopped :=
    match a with
    | .stopInstance instanceId => s.stopped + (s.pool.stopInstance instanceId).1.toNat
    | _ => s.stopped
  next :=
    match a with
    | .event instanceId event => (s.pool.handleEvent instanceId s.next event).2.2
    | _ => s.next

/-- A start displaces no instance, and the pool counts what was started and stopped. -/
structure StartsFresh (s : ServerHistory) (a : ServerAction) : Prop where
  succeeded : s.startAttempt a = some true → ∃ id server,
    s.pool.m_servers.lookup id = none ∧ (s.step a).pool.m_servers.lookup id = some server ∧
      ∀ other, other ≠ id →
        (s.step a).pool.m_servers.lookup other = s.pool.m_servers.lookup other
  failed : s.startAttempt a = some false → (s.step a).pool.m_servers = s.pool.m_servers
  active : (s.step a).pool.getActiveServers + (s.step a).stopped = (s.step a).started
  players : (s.startAttempt a).isSome →
    s.pool.getActivePlayers ≤ (s.step a).pool.getActivePlayers

/-- A start that succeeds finds the number of instances unused as an id. -/
def NextIdFree (s : ServerHistory) (a : ServerAction) : Prop :=
  s.startAttempt a = some true → s.pool.m_servers.lookup s.pool.nextInstanceId = none

def Counted (s : ServerHistory) : Prop := s.pool.getActiveServers + s.stopped = s.started

theorem nextPool_of_startAttempt (s : ServerHistory) (a : ServerAction) (initOk : Bool)
    (h : s.startAttempt a = some initOk) : s.nextPool a = (s.pool.startInstance initOk).2 := by
  cases a with
  | startInstance ok =>
    obtain rfl := Option.some.inj h
    rfl
  | stopInstance id => cases h
  | getBalancedServer ok =>
    simp only [startAttempt] at h
    split at h
    · rename_i hnone
      obtain rfl := Option.some.inj h
      have hfind : s.pool.findBalanced = none := Option.isNone_iff_eq_none.mp hnone
      simp only [nextPool, ServerPool.getBalancedServer, hfind]
    · cases h
  | event id event => cases h

theorem step_succeeded (s : ServerHistory) (a : ServerAction) (h : s.startAttempt a = some true) :
    (s.step a).pool.m_servers = s.pool.m_servers.insert s.pool.nextInstanceId
      { port := basePort + s.pool.serverOffset } := by
  show (s.nextPool a).m_servers = _
  rw [nextPool_of_startAttempt s a true h, ServerPool.startInstance_succeeded]

theorem counted_step (s : ServerHistory) (a : ServerAction) (h : s.Counted)
    (hfree : s.NextIdFree a) : (s.step a).Counted := by
  have hcount : s.pool.getActiveServers + s.stopped = s.started := h
  have hstart (initOk : Bool) (hattempt : s.startAttempt a = some initOk) :
      (s.nextPool a).getActiveServers = s.pool.getActiveServers + initOk.toNat := by
    rw [nextPool_of_startAttempt s a initOk hattempt]
    apply ServerPool.getActiveServers_startInstance
    intro hinit
    exact hfree (hinit ▸ hattempt)
  show (s.nextPool a).getActiveServers + (s.step a).stopped = (s.step a).started
  cases a with
  | startInstance initOk =>
    have hlen := hstart initOk rfl
    simp only [step, startAttempt, Option.getD_some]
    omega
  | stopInstance id =>
    have hlen := s.pool.getActiveServers_stopInstance id
    simp only [step, startAttempt, nextPool, Option.getD_none, Bool.toNat_false]
    omega
  | getBalancedServer initOk =>
    cases hbalanced : s.pool.findBalanced with
    | none =>
      have hattempt : s.startAttempt (.getBalancedServer initOk) = some initOk :=
        if_pos (by rw [hbalanced]; rfl)
      have hlen := hstart initOk hattempt
      simp only [step, hattempt, Option.getD_some]
      omega
    | some id =>
      have hattempt : s.startAttempt (.getBalancedServer initOk) = none :=
        if_neg (by rw [hbalanced]; exact Bool.false_ne_true)
      simp only [step, hattempt, nextPool, ServerPool.getBalancedServer, hbalanced,
        Option.getD_none, Bool.toNat_false]
      omega
  | event id event =>
    have hlen := s.pool.getActiveServers_handleEvent id s.next event
    simp only [step, startAttempt, nextPool, Option.getD_none, Bool.toNat_false]
    omega

theorem startsFresh_iff (s : ServerHistory) (a : ServerAction) (h : s.Counted) :
    s.StartsFresh a ↔ s.NextIdFree a := by
  constructor
  · intro hgood hattempt
    obtain ⟨id, server, hnone, hsome, -⟩ := hgood.succeeded hattempt
    rw [step_succeeded s a hattempt] at hsome
    by_cases hid : id = s.pool.nextInstanceId
    · rwa [← hid]
    · rw [AList.lookup_insert_ne hid, hnone] at hsome
      cases hsome
  · intro hfree
    refine ⟨?_, ?_, counted_step s a h hfree, ?_⟩
    · intro hattempt
      rw [step_succeeded s a hattempt]
      exact ⟨s.pool.nextInstanceId, _, hfree hattempt, AList.lookup_insert _,
        fun other hother => AList.lookup_insert_ne hother⟩
    · intro hattempt
      show (s.nextPool a).m_servers = _
      rw [nextPool_of_startAttempt s a false hattempt, ServerPool.startInstance_failed]
    · intro hattempt
      obtain ⟨initOk, hinit⟩ := Option.isSome_iff_exists.mp hattempt
      show _ ≤ (s.nextPool a).getActivePlayers
      rw [nextPool_of_startAttempt s a initOk hinit]
      cases initOk with
      | false => exact Nat.le_refl _
      | true =>
        have hplayers := ServerPool.getActivePlayers_insert s.pool s.pool.nextInstanceId
          { port := basePort + s.pool.serverOffset } (hfree hinit) rfl
        exact hplayers.ge

/-- Over every run of calls and events, no start displaces a running instance exactly
when every successful start finds the number of running instances free as an id. -/
theorem along_startsFresh_iff (as : List ServerAction) :
    Along step StartsFresh {} as ↔ Along step NextIdFree {} as :=
  along_iff (I := Counted) rfl (fun s a hs _ hfree => counted_step s a hs hfree)
    (fun s a hs _ => startsFresh_iff s a hs) (along_true _ _)

theorem not_along_startsFresh :
    ¬ Along step StartsFresh {}
      [.startInstance true, .startInstance true, .stopInstance 0, .startInstance true] := by
  intro h
  have hcount := h.2.2.2.1.active
  revert hcount
  decide

end ServerHistory

end GrowServer
