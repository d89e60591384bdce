import GrowServer.Server.Lifecycle
import GrowServer.Utils.TextNumber

/-!
# HTTPServer (Network/HTTPServer.cpp)

The reply to `/growtopia/server_data.php`, which tells a client where to connect. It names
the base port, whichever instances are running: the ports of instances are counted up from
there with every start, and are not used again.
-/

namespace GrowServer
open LittleEndian RunLogic

def baseHost : Bytes := ascii "127.0.0.1"

namespace HTTPServer

abbrev Port := IntegralType.Value (.unsigned .w16)

def portOf (port : UInt16) : Port :=
  ⟨port.toNat, Int.natCast_nonneg _, by
    have hlt := port.toNat_lt
    show (port.toNat : ℤ) < 2 ^ 16
    omega⟩

/-- HTTPServer.cpp:41-47. -/
def serverData : TextParse :=
  ({} : TextParse).add (ascii "server") baseHost
    |>.addIntegral (ascii "port") (portOf basePort)
    |>.addIntegral (ascii "type") (⟨1, Or.inr rfl⟩ : IntegralType.Value .bool)
    |>.add (ascii "#maint") (ascii "Server is under maintenance. We will be back online shortly. " ++
      ascii "Thank you for your patience!")
    |>.add (ascii "meta") (ascii "0DA34F801AE23F00")
    |>.add (ascii "RTENDMARKERBS1001") [] []

def response : Bytes := serverData.getAsString

/-- The port that a client finds in the reply. -/
def advertised : Except Fault Port :=
  (TextParse.parse response).getIntegral (.unsigned .w16) (ascii "port")

theorem advertised_eq : advertised = .ok (portOf basePort) := by decide +kernel

end HTTPServer

namespace Instances
open HTTPServer

/-- A running instance listens on the port that a client is told. -/
def Reachable (s : Instances) : Prop :=
  ∃ id k object, s.m_servers.lookup id = some k ∧ s.objects[k]? = some object ∧
    advertised = .ok (portOf object.server.port)

theorem portOf_inj {port port' : UInt16} (h : portOf port = portOf port') : port = port' := by
  have hval : (port.toNat : ℤ) = port'.toNat := congrArg IntegralType.Value.val h
  rw [← UInt16.toNat_inj]
  omega

theorem advertised_iff (k : ℕ) :
    advertised = .ok (portOf (basePort + UInt16.ofNat k)) ↔ k % 65536 = 0 := by
  have hzero : basePort = basePort + UInt16.ofNat 0 := by decide
  rw [advertised_eq]
  constructor
  · intro h
    have hport := portOf_inj (Except.ok.inj h)
    exact ((port_eq_iff 0 k).mp (hzero.symm.trans hport)).symm
  · intro h
    have hport := (port_eq_iff 0 k).mpr h.symm
    exact congrArg (fun port => Except.ok (portOf port)) (hzero.trans hport)

theorem reachable_iff {s : Instances} (h : s.Numbered) :
    s.Reachable ↔ ∃ id k, s.m_servers.lookup id = some k ∧ k % 65536 = 0 := by
  constructor
  · intro hreachable
    obtain ⟨id, k, object, hid, hobject, hport⟩ := hreachable
    rw [(h.object hobject).1, advertised_iff] at hport
    exact ⟨id, k, hid, hport⟩
  · intro hrunning
    obtain ⟨id, k, hid, hk⟩ := hrunning
    obtain ⟨object, hobject⟩ : ∃ object, s.objects[k]? = some object :=
      ⟨_, List.getElem?_eq_getElem (h.refers hid)⟩
    refine ⟨id, k, object, hid, hobject, ?_⟩
    rwa [(h.object hobject).1, advertised_iff]

/-- No step runs an object again that the map does not refer to. -/
theorem stopped_step {s : Instances} {k : ℕ} (hk : k < s.objects.length)
    (h : ∀ id, s.m_servers.lookup id ≠ some k) (a : InstanceAction) :
    k < (s.step a).objects.length ∧ ∀ id, (s.step a).m_servers.lookup id ≠ some k := by
  have hlength := s.objects_length_step a
  refine ⟨by omega, ?_⟩
  intro id hid
  cases hconsole : isConsole a with
  | false =>
    rw [m_servers_step hconsole] at hid
    exact h id hid
  | true =>
    cases a with
    | startInstance initOk =>
      cases initOk with
      | false => exact h id hid
      | true =>
        have hinsert : (s.m_servers.insert s.nextInstanceId s.objects.length).lookup id = some k :=
          hid
        by_cases hnew : id = s.nextInstanceId
        · rw [hnew, AList.lookup_insert] at hinsert
          have hlast := Option.some.inj hinsert
          omega
        · rw [AList.lookup_insert_ne hnew] at hinsert
          exact h id hinsert
    | stopInstance instanceId => exact h id (lookup_stopInstance hid)
    | getServers => cases hconsole
    | event event => cases hconsole
    | nextServer => cases hconsole

theorem stopped_exec {s : Instances} {k : ℕ} (hk : k < s.objects.length)
    (h : ∀ id, s.m_servers.lookup id ≠ some k) (as : List InstanceAction) (id : UInt8) :
    (exec step s as).m_servers.lookup id ≠ some k := by
  have hend : k < (exec step s as).objects.length ∧
      ∀ id, (exec step s as).m_servers.lookup id ≠ some k :=
    exec_invariant
      (I := fun s : Instances => k < s.objects.length ∧ ∀ id, s.m_servers.lookup id ≠ some k) as
      ⟨hk, h⟩ fun _ a hs => stopped_step hs.1 hs.2 a
  exact hend.2 id

/-- A client that does what the reply says reaches a running instance exactly when there is
one that was made by the first start, or by one a multiple of 65536 later. Once the first
instance is stopped, no instance of the other starts up to there is ever reached. -/
theorem server_data_reaches (as further : List InstanceAction) :
    ((exec step {} as).Reachable ↔
      ∃ id k, (exec step {} as).m_servers.lookup id = some k ∧ k % 65536 = 0) ∧
    (0 < as.countP isStart → (∀ id, (exec step {} as).m_servers.lookup id ≠ some 0) →
      as.countP isStart + further.countP isStart ≤ 65536 →
      ¬ (exec step (exec step {} as) further).Reachable) := by
  have hnumbered : (exec step {} as).Numbered :=
    exec_invariant as numbered_start fun s a h => numbered_step h a
  have hnumbered' : (exec step (exec step {} as) further).Numbered :=
    exec_invariant further hnumbered fun s a h => numbered_step h a
  refine ⟨reachable_iff hnumbered, ?_⟩
  intro hstarted hstopped hfew hreachable
  obtain ⟨id, k, hid, hk⟩ := (reachable_iff hnumbered').mp hreachable
  have hlength := objects_length_exec {} as
  have hlength' := objects_length_exec (exec step {} as) further
  have hnone : ({} : Instances).objects.length = 0 := rfl
  have hlt := hnumbered'.refers hid
  obtain rfl : k = 0 := by omega
  exact stopped_exec (by omega) hstopped further id hid

/-- The first instance is stopped, and another is started under its id. -/
theorem server_data_reaches_restart :
    0 < [InstanceAction.startInstance true, .stopInstance 0].countP isStart ∧
      (∀ id, (exec step {} [.startInstance true, .stopInstance 0]).m_servers.lookup id ≠ some 0) ∧
      (exec step {} [.startInstance true, .stopInstance 0, .startInstance true]).m_servers.lookup 0 =
        some 1 ∧
      ¬ (exec step (exec step {} [.startInstance true, .stopInstance 0])
        [.startInstance true]).Reachable := by
  have hstarted : 0 < [InstanceAction.startInstance true, .stopInstance 0].countP isStart := by
    decide
  have hstopped : ∀ id, (exec step {} [.startInstance true, .stopInstance 0]).m_servers.lookup id ≠
      some 0 := by
    intro id hid
    have hempty : (exec step {} [.startInstance true, .stopInstance 0]).m_servers = ∅ := rfl
    rw [hempty] at hid
    cases hid
  have hdead := (server_data_reaches [.startInstance true, .stopInstance 0]
    [.startInstance true]).2 hstarted hstopped (by decide)
  exact ⟨hstarted, hstopped, rfl, hdead⟩

end Instances

end GrowServer
