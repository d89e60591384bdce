import GrowServer.ENetWrapper.ENetServer
import GrowServer.Lib.Ledger
import GrowServer.Server.ServerPool

/-!
# The life of a server instance (Server/ServerPool.cpp, Server/Server.cpp, Player/PlayerPool.cpp)

The instances as objects. The console thread starts and stops them; the network thread goes
round over a copy of the map, which holds on to a server that is stopped meanwhile. An
object is destroyed with the last reference to it, and does not delete its players then.
-/

namespace GrowServer
open RunLogic LittleEndian
open scoped List

def PlayerPool.addresses (this : PlayerPool) : List ℕ := this.getPlayers.map PlayerPtr.address

/-- A `Server`, with the id of its `ENetServer`. -/
structure ServerObject where
  server : Server
  m_uniqueId : Bytes
  deriving DecidableEq

namespace ServerObject

def playerPool (this : ServerObject) : PlayerPool := this.server.playerPool

def addresses (this : ServerObject) : List ℕ := this.playerPool.addresses

def withPool (this : ServerObject) (playerPool : PlayerPool) : ServerObject :=
  { this with server := { this.server with playerPool } }

end ServerObject

/-- Every object that was ever constructed, by the number of its construction. The map and
what is left of the copy refer to objects, and the first of the copy is being polled. An object
that has been destroyed is on record as it was last: the destructor empties the pool and
deletes no player of it. -/
structure Instances where
  objects : List ServerObject := []
  m_servers : AList (fun _ : UInt8 => ℕ) := ∅
  serverOffset : UInt16 := 0
  idGenerator : Int16 := 0
  snapshot : List (UInt8 × ℕ) := []
  next : ℕ := 0
  freed : List ℕ := []
  handled : List (ℕ × ENetEvent) := []

inductive InstanceAction where
  | startInstance (initOk : Bool)
  | stopInstance (instanceId : UInt8)
  | getServers
  | event (event : ENetEvent)
  | nextServer
  deriving DecidableEq

/-- The players that `RemovePlayer` deletes. -/
def deletedBy (playerPool : PlayerPool) : ENetEvent → List ℕ
  | .disconnect _ connectID => (playerPool.getPlayer connectID).toList.map PlayerPtr.address
  | _ => []

namespace Instances

def nextInstanceId (this : Instances) : UInt8 := UInt8.ofNat this.m_servers.entries.length

def startInstance (this : Instances) (initOk : Bool) : Instances :=
  let instanceId := this.nextInstanceId
  let server : ServerObject :=
    ⟨{ port := basePort + this.serverOffset }, ENetServer.uniqueId this.idGenerator⟩
  let after := { this with
    objects := this.objects ++ [server]
    serverOffset := this.serverOffset + 1
    idGenerator := this.idGenerator + 1 }
  if ¬ initOk then after
  else { after with m_servers := this.m_servers.insert instanceId this.objects.length }

def stopInstance (this : Instances) (instanceId : UInt8) : Bool × Instances :=
  if (this.m_servers.lookup instanceId).isNone then (false, this)
  else (true, { this with m_servers := this.m_servers.erase instanceId })

/-- The copy of the map, in whatever order the map is gone through. -/
def getServers (this : Instances) : List (UInt8 × ℕ) :=
  this.m_servers.entries.map fun entry => (entry.1, entry.2)

def serve (this : Instances) (instanceId : UInt8) (k : ℕ) (object : ServerObject)
    (event : ENetEvent) : Instances :=
  let handled := handleEvent instanceId object.playerPool this.next event
  { this with
    objects := this.objects.set k (object.withPool handled.playerPool)
    next := handled.next
    freed := this.freed ++ deletedBy object.playerPool event
    handled := this.handled ++ [(k, event)] }

def onEvent (this : Instances) (event : ENetEvent) : Instances :=
  match this.snapshot with
  | [] => this
  | (instanceId, k) :: _ =>
    match this.objects[k]? with
    | none => this
    | some object => this.serve instanceId k object event

-- a sweep begins when the one before it is over
def step (this : Instances) : InstanceAction → Instances
  | .startInstance initOk => this.startInstance initOk
  | .stopInstance instanceId => (this.stopInstance instanceId).2
  | .getServers => if this.snapshot = [] then { this with snapshot := this.getServers } else this
  | .event event => this.onEvent event
  | .nextServer => { this with snapshot := this.snapshot.tail }

def filed (this : Instances) : List ℕ := this.objects.flatMap ServerObject.addresses

/-! ### What an event does to the players -/

theorem addresses_newPlayer (playerPool : PlayerPool) {connectID : UInt32} {peer : ENetPeer}
    (next : ℕ) (h : playerPool.getPlayer connectID = none) :
    (playerPool.newPlayer connectID ⟨next, peer⟩).addresses = next :: playerPool.addresses := by
  have hentries := AList.entries_insert_of_notMem (b := (⟨next, peer⟩ : PlayerPtr))
    (AList.lookup_eq_none.mp h)
  simp only [PlayerPool.addresses, PlayerPool.getPlayers, PlayerPool.newPlayer, hentries,
    List.map_cons]

theorem addresses_removePlayer (playerPool : PlayerPool) {connectID : UInt32} {player : PlayerPtr}
    (h : playerPool.getPlayer connectID = some player) :
    playerPool.addresses ~ player.address :: (playerPool.removePlayer connectID).addresses := by
  have hplayers : playerPool.getPlayers ~ player :: (playerPool.removePlayer connectID).getPlayers :=
    (Assoc.entries_perm_of_lookup h).map _
  exact hplayers.map PlayerPtr.address

/-- The players stay as they are, a new one is filed, or one is deleted. -/
theorem addresses_handleEvent (instanceId : UInt8) (playerPool : PlayerPool) (next : ℕ)
    (event : ENetEvent) :
    ((handleEvent instanceId playerPool next event).next = next ∧
        deletedBy playerPool event = [] ∧
        (handleEvent instanceId playerPool next event).playerPool.addresses =
          playerPool.addresses) ∨
      ((handleEvent instanceId playerPool next event).next = next + 1 ∧
        deletedBy playerPool event = [] ∧
        (handleEvent instanceId playerPool next event).playerPool.addresses =
          next :: playerPool.addresses) ∨
      ((handleEvent instanceId playerPool next event).next = next ∧
        ∃ address, deletedBy playerPool event = [address] ∧
          playerPool.addresses ~
            address :: (handleEvent instanceId playerPool next event).playerPool.addresses) := by
  cases event with
  | none => exact Or.inl ⟨rfl, rfl, rfl⟩
  | connect peer connectID =>
    cases hfound : playerPool.getPlayer connectID with
    | some player =>
      rw [handleEvent_connect_some instanceId playerPool next hfound]
      exact Or.inl ⟨rfl, rfl, rfl⟩
    | none =>
      rw [handleEvent_connect_none instanceId playerPool next hfound]
      exact Or.inr (Or.inl ⟨rfl, rfl, addresses_newPlayer playerPool next hfound⟩)
  | disconnect peer connectID =>
    cases hfound : playerPool.getPlayer connectID with
    | none =>
      rw [handleEvent_disconnect_none instanceId playerPool next hfound]
      exact Or.inl ⟨rfl, by rw [deletedBy, hfound]; rfl, rfl⟩
    | some player =>
      rw [handleEvent_disconnect_some instanceId playerPool next hfound]
      exact Or.inr (Or.inr ⟨rfl, player.address, by rw [deletedBy, hfound]; rfl,
        addresses_removePlayer playerPool hfound⟩)
  | receive peer connectID packet =>
    rw [(handleEvent_receive instanceId playerPool next peer connectID packet).1]
    exact Or.inl ⟨next_receive instanceId playerPool next peer connectID packet, rfl, rfl⟩

theorem onEvent_cases (s : Instances) (event : ENetEvent) :
    s.onEvent event = s ∨ ∃ instanceId k rest object, s.snapshot = (instanceId, k) :: rest ∧
      s.objects[k]? = some object ∧ s.onEvent event = s.serve instanceId k object event := by
  unfold onEvent
  cases hsnapshot : s.snapshot with
  | nil => exact Or.inl rfl
  | cons entry rest =>
    obtain ⟨instanceId, k⟩ := entry
    cases hobject : s.objects[k]? with
    | none => exact Or.inl (by simp only [hobject])
    | some object => exact Or.inr ⟨instanceId, k, rest, object, rfl, hobject, by simp only [hobject]⟩

theorem objects_startInstance (s : Instances) (initOk : Bool) :
    (s.startInstance initOk).objects = s.objects ++
      [⟨{ port := basePort + s.serverOffset }, ENetServer.uniqueId s.idGenerator⟩] := by
  cases initOk with
  | false => rfl
  | true => rfl

theorem object_startInstance_cases {s : Instances} {initOk : Bool} {k : ℕ} {object : ServerObject}
    (h : (s.startInstance initOk).objects[k]? = some object) :
    s.objects[k]? = some object ∨ (k = s.objects.length ∧
      object = ⟨{ port := basePort + s.serverOffset }, ENetServer.uniqueId s.idGenerator⟩) := by
  rw [objects_startInstance] at h
  by_cases hk : k < s.objects.length
  · rw [List.getElem?_append_left hk] at h
    exact Or.inl h
  · rw [List.getElem?_append_right (Nat.le_of_not_lt hk)] at h
    obtain ⟨hlt, hlast⟩ := List.getElem?_eq_some_iff.mp h
    rw [List.length_singleton] at hlt
    refine Or.inr ⟨by omega, ?_⟩
    rw [← hlast, List.getElem_singleton]

theorem objects_stopInstance (s : Instances) (instanceId : UInt8) :
    (s.stopInstance instanceId).2 =
      { s with m_servers := (s.stopInstance instanceId).2.m_servers } := by
  unfold stopInstance
  split
  · rfl
  · rfl

theorem lookup_stopInstance {s : Instances} {instanceId id : UInt8} {k : ℕ}
    (h : (s.stopInstance instanceId).2.m_servers.lookup id = some k) :
    s.m_servers.lookup id = some k := by
  unfold stopInstance at h
  split at h
  · exact h
  · have herase : (s.m_servers.erase instanceId).lookup id = some k := h
    by_cases hid : id = instanceId
    · rw [hid, AList.lookup_erase] at herase
      cases herase
    · rwa [AList.lookup_erase_ne hid] at herase

/-! ### Every player is in one place -/

/-- Each player there ever was is deleted, or filed on one object, and only once. -/
def Accounted (s : Instances) : Prop := s.freed ++ s.filed ~ List.range s.next

theorem accounted_serve {s : Instances} (h : s.Accounted) {instanceId : UInt8} {k : ℕ}
    {object : ServerObject} (hobject : s.objects[k]? = some object) (event : ENetEvent) :
    (s.serve instanceId k object event).Accounted := by
  show (s.freed ++ deletedBy object.playerPool event) ++
    (s.objects.set k (object.withPool
      (handleEvent instanceId object.playerPool s.next event).playerPool)).flatMap
        ServerObject.addresses ~
      List.range (handleEvent instanceId object.playerPool s.next event).next
  rcases addresses_handleEvent instanceId object.playerPool s.next event with
    ⟨hnext, hdeleted, hsame⟩ | ⟨hnext, hdeleted, hnew⟩ | ⟨hnext, address, hdeleted, hgone⟩
  · have hfiled := Ledger.perm_set_of_eq (f := ServerObject.addresses) (b := object.withPool _)
      hobject hsame
    rw [hnext, hdeleted, List.append_nil]
    exact (hfiled.append_left _).trans h
  · have hfiled := Ledger.perm_set_cons (f := ServerObject.addresses) (b := object.withPool _)
      hobject (.of_eq hnew)
    rw [hnext, hdeleted, List.append_nil, List.range_succ]
    calc s.freed ++ _ ~ s.freed ++ s.next :: s.filed := hfiled.append_left _
      _ ~ s.next :: (s.freed ++ s.filed) := List.perm_middle
      _ ~ s.next :: List.range s.next := h.cons _
      _ ~ List.range s.next ++ [s.next] := (List.perm_append_singleton s.next _).symm
  · have hfiled := Ledger.perm_set_of_cons (f := ServerObject.addresses) (b := object.withPool _)
      hobject hgone
    rw [hnext, hdeleted, List.append_assoc]
    exact (hfiled.symm.append_left s.freed).trans h

theorem accounted_step {s : Instances} (h : s.Accounted) (a : InstanceAction) :
    (s.step a).Accounted := by
  cases a with
  | startInstance initOk =>
    have hfiled : (s.startInstance initOk).filed = s.filed := by
      rw [filed, objects_startInstance, List.flatMap_append]
      exact List.append_nil _
    have hrest : (s.startInstance initOk).freed = s.freed ∧
        (s.startInstance initOk).next = s.next := by
      cases initOk with
      | false => exact ⟨rfl, rfl⟩
      | true => exact ⟨rfl, rfl⟩
    show (s.startInstance initOk).freed ++ (s.startInstance initOk).filed ~
      List.range (s.startInstance initOk).next
    rw [hrest.1, hrest.2, hfiled]
    exact h
  | stopInstance instanceId =>
    show ((s.stopInstance instanceId).2).Accounted
    rw [objects_stopInstance]
    exact h
  | getServers =>
    simp only [step]
    split
    · exact h
    · exact h
  | event event =>
    show (s.onEvent event).Accounted
    rcases s.onEvent_cases event with hsame | ⟨instanceId, k, rest, object, -, hobject, hserve⟩
    · rwa [hsame]
    · rw [hserve]
      exact accounted_serve h hobject event
  | nextServer => exact h

/-! ### Ports and ids -/

/-- An object has the port and the id of its number, and the map refers to each at most once. -/
structure Numbered (s : Instances) : Prop where
  offset : s.serverOffset = UInt16.ofNat s.objects.length
  counter : s.idGenerator = Int16.ofNat s.objects.length
  object : ∀ {k object}, s.objects[k]? = some object →
    object.server.port = basePort + UInt16.ofNat k ∧
      object.m_uniqueId = ENetServer.uniqueId (Int16.ofNat k)
  refers : ∀ {id k}, s.m_servers.lookup id = some k → k < s.objects.length
  distinct : ∀ {id id' k}, s.m_servers.lookup id = some k → s.m_servers.lookup id' = some k →
    id = id'

theorem numbered_startInstance {s : Instances} (h : s.Numbered) (initOk : Bool) :
    (s.startInstance initOk).Numbered := by
  have hobjects := s.objects_startInstance initOk
  have hlength : (s.startInstance initOk).objects.length = s.objects.length + 1 := by
    rw [hobjects, List.length_append, List.length_singleton]
  have hcounters : (s.startInstance initOk).serverOffset = s.serverOffset + 1 ∧
      (s.startInstance initOk).idGenerator = s.idGenerator + 1 := by
    cases initOk with
    | false => exact ⟨rfl, rfl⟩
    | true => exact ⟨rfl, rfl⟩
  have hlookup {id : UInt8} {k : ℕ} (hk : (s.startInstance initOk).m_servers.lookup id = some k) :
      (id = s.nextInstanceId ∧ k = s.objects.length) ∨ s.m_servers.lookup id = some k := by
    cases initOk with
    | false => exact Or.inr hk
    | true =>
      have hinsert : (s.m_servers.insert s.nextInstanceId s.objects.length).lookup id = some k := hk
      by_cases hid : id = s.nextInstanceId
      · rw [hid, AList.lookup_insert] at hinsert
        exact Or.inl ⟨hid, (Option.some.inj hinsert).symm⟩
      · rw [AList.lookup_insert_ne hid] at hinsert
        exact Or.inr hinsert
  refine ⟨?_, ?_, ?_, ?_, ?_⟩
  · rw [hcounters.1, h.offset, hlength, UInt16.ofNat_add]
    rfl
  · rw [hcounters.2, h.counter, hlength, Int16.ofNat_add]
    rfl
  · intro k object hobject
    rcases object_startInstance_cases hobject with hold | ⟨rfl, rfl⟩
    · exact h.object hold
    · exact ⟨congrArg (basePort + ·) h.offset, congrArg ENetServer.uniqueId h.counter⟩
  · intro id k hk
    rw [hlength]
    rcases hlookup hk with ⟨-, rfl⟩ | hold
    · exact Nat.lt_succ_self _
    · exact Nat.lt_succ_of_lt (h.refers hold)
  · intro id id' k hk hk'
    rcases hlookup hk with ⟨rfl, rfl⟩ | hold
    · rcases hlookup hk' with ⟨rfl, -⟩ | hold'
      · rfl
      · exact absurd (h.refers hold') (Nat.lt_irrefl _)
    · rcases hlookup hk' with ⟨-, rfl⟩ | hold'
      · exact absurd (h.refers hold) (Nat.lt_irrefl _)
      · exact h.distinct hold hold'

theorem numbered_serve {s : Instances} (h : s.Numbered) (instanceId : UInt8) {k : ℕ}
    {object : ServerObject} (hobject : s.objects[k]? = some object) (event : ENetEvent) :
    (s.serve instanceId k object event).Numbered := by
  have hlength : (s.serve instanceId k object event).objects.length = s.objects.length :=
    List.length_set
  refine ⟨?_, ?_, ?_, ?_, h.distinct⟩
  · rw [hlength]
    exact h.offset
  · rw [hlength]
    exact h.counter
  · intro l other hother
    by_cases hl : k = l
    · subst hl
      obtain ⟨hlt, -⟩ := List.getElem?_eq_some_iff.mp hobject
      have hset : (s.objects.set k _)[k]? = some other := hother
      rw [List.getElem?_set_self hlt] at hset
      obtain rfl := Option.some.inj hset
      have hsame := h.object hobject
      exact hsame
    · have hset : (s.objects.set k _)[l]? = some other := hother
      rw [List.getElem?_set_ne hl] at hset
      exact h.object hset
  · intro id l hl
    rw [hlength]
    exact h.refers hl

theorem numbered_step {s : Instances} (h : s.Numbered) (a : InstanceAction) :
    (s.step a).Numbered := by
  cases a with
  | startInstance initOk => exact numbered_startInstance h initOk
  | stopInstance instanceId =>
    have hrefers {id k} (hk : (s.stopInstance instanceId).2.m_servers.lookup id = some k) :=
      h.refers (lookup_stopInstance hk)
    have hdistinct {id id' k} (hk : (s.stopInstance instanceId).2.m_servers.lookup id = some k)
        (hk' : (s.stopInstance instanceId).2.m_servers.lookup id' = some k) :=
      h.distinct (lookup_stopInstance hk) (lookup_stopInstance hk')
    show ((s.stopInstance instanceId).2).Numbered
    rw [objects_stopInstance]
    exact ⟨h.offset, h.counter, h.object, hrefers, hdistinct⟩
  | getServers =>
    simp only [step]
    split
    · exact ⟨h.offset, h.counter, h.object, h.refers, h.distinct⟩
    · exact h
  | event event =>
    show (s.onEvent event).Numbered
    rcases s.onEvent_cases event with hsame | ⟨instanceId, k, rest, object, -, hobject, hserve⟩
    · rwa [hsame]
    · rw [hserve]
      exact numbered_serve h instanceId hobject event
  | nextServer => exact ⟨h.offset, h.counter, h.object, h.refers, h.distinct⟩

def isStart : InstanceAction → Bool
  | .startInstance _ => true
  | _ => false

theorem objects_length_step (s : Instances) (a : InstanceAction) :
    (s.step a).objects.length = s.objects.length + (isStart a).toNat := by
  cases a with
  | startInstance initOk =>
    show (s.startInstance initOk).objects.length = _
    rw [objects_startInstance, List.length_append]
    rfl
  | stopInstance instanceId =>
    show ((s.stopInstance instanceId).2).objects.length = _
    rw [objects_stopInstance]
    rfl
  | getServers =>
    simp only [step]
    split
    · rfl
    · rfl
  | event event =>
    show (s.onEvent event).objects.length = _
    rcases s.onEvent_cases event with hsame | ⟨instanceId, k, rest, object, -, -, hserve⟩
    · rw [hsame]
      rfl
    · rw [hserve]
      exact List.length_set
  | nextServer => rfl

theorem objects_length_exec (s : Instances) (as : List InstanceAction) :
    (exec step s as).objects.length = s.objects.length + as.countP isStart := by
  induction as generalizing s with
  | nil => rfl
  | cons a as ih =>
    show (exec step (s.step a) as).objects.length = _
    rw [ih, objects_length_step, List.countP_cons]
    cases isStart a with
    | false => rfl
    | true =>
      simp only [Bool.toNat_true, if_true]
      omega

theorem numbered_start : Numbered {} where
  offset := rfl
  counter := rfl
  object h := by cases h
  refers h := by cases h
  distinct h := by cases h

theorem port_eq_iff (k l : ℕ) :
    basePort + UInt16.ofNat k = basePort + UInt16.ofNat l ↔ k % 65536 = l % 65536 := by
  rw [UInt16.add_right_inj, ← UInt16.toNat_inj, UInt16.toNat_ofNat', UInt16.toNat_ofNat']

theorem uniqueId_eq_iff (k l : ℕ) :
    ENetServer.uniqueId (Int16.ofNat k) = ENetServer.uniqueId (Int16.ofNat l) ↔
      k % 65536 = l % 65536 := by
  have hcounter : Int16.ofNat k = Int16.ofNat l ↔ k % 65536 = l % 65536 := by
    rw [← Int16.toBitVec_inj, Int16.toBitVec_ofNat', Int16.toBitVec_ofNat', ← BitVec.toNat_inj,
      BitVec.toNat_ofNat, BitVec.toNat_ofNat]
  rw [← hcounter]
  exact ⟨ENetServer.uniqueId_injective, congrArg _⟩

/-- Over any run, two running instances have the same port exactly when they have the same id,
which is when the starts that made them are a multiple of 65536 apart. So up to 65536 starts,
failed ones included, every running instance has a port and an id of its own. -/
theorem ports_and_ids (as : List InstanceAction) {i j : UInt8} {k l : ℕ}
    {object other : ServerObject} (hi : (exec step {} as).m_servers.lookup i = some k)
    (hj : (exec step {} as).m_servers.lookup j = some l)
    (hobject : (exec step {} as).objects[k]? = some object)
    (hother : (exec step {} as).objects[l]? = some other) :
    (object.server.port = other.server.port ↔ k % 65536 = l % 65536) ∧
      (object.m_uniqueId = other.m_uniqueId ↔ k % 65536 = l % 65536) ∧
      (as.countP isStart ≤ 65536 → (object.server.port = other.server.port ↔ i = j)) := by
  have hnumbered : (exec step {} as).Numbered :=
    exec_invariant as numbered_start fun s a h => numbered_step h a
  obtain ⟨hport, hid⟩ := hnumbered.object hobject
  obtain ⟨hport', hid'⟩ := hnumbered.object hother
  have hports : object.server.port = other.server.port ↔ k % 65536 = l % 65536 := by
    rw [hport, hport', port_eq_iff]
  refine ⟨hports, by rw [hid, hid', uniqueId_eq_iff], ?_⟩
  intro hfew
  have hk := hnumbered.refers hi
  have hl := hnumbered.refers hj
  have hlength := objects_length_exec {} as
  rw [hports]
  constructor
  · intro hmod
    have hlt : as.countP isStart + 0 = (exec step {} as).objects.length := by
      rw [hlength]
      exact Nat.add_comm _ _
    obtain rfl : k = l := by omega
    exact hnumbered.distinct hi hj
  · intro hij
    rw [hij, hj] at hi
    rw [Option.some.inj hi]

/-- Two servers that run, and one whose port was busy in between. -/
def threeStarts : List InstanceAction :=
  [.startInstance true, .startInstance false, .startInstance true]

theorem ports_and_ids_threeStarts :
    ∃ object other, (exec step {} threeStarts).m_servers.lookup 0 = some 0 ∧
      (exec step {} threeStarts).m_servers.lookup 1 = some 2 ∧
      (exec step {} threeStarts).objects[0]? = some object ∧
      (exec step {} threeStarts).objects[2]? = some other ∧ threeStarts.countP isStart ≤ 65536 ∧
      (object.server.port = other.server.port ↔ 0 % 65536 = 2 % 65536) ∧
      (object.m_uniqueId = other.m_uniqueId ↔ 0 % 65536 = 2 % 65536) ∧
      (object.server.port = other.server.port ↔ (0 : UInt8) = 1) := by
  obtain ⟨object, hobject⟩ : ∃ object, (exec step {} threeStarts).objects[0]? = some object :=
    ⟨_, rfl⟩
  obtain ⟨other, hother⟩ : ∃ other, (exec step {} threeStarts).objects[2]? = some other := ⟨_, rfl⟩
  have hfirst : (exec step {} threeStarts).m_servers.lookup 0 = some 0 := rfl
  have hsecond : (exec step {} threeStarts).m_servers.lookup 1 = some 2 := rfl
  have hfew : threeStarts.countP isStart ≤ 65536 := by decide
  obtain ⟨hport, hid, hfresh⟩ := ports_and_ids threeStarts hfirst hsecond hobject hother
  exact ⟨object, other, hfirst, hsecond, hobject, hother, hfew, hport, hid, hfresh hfew⟩

/-! ### What a server that is gone leaves behind -/

/-- The map or the copy that is gone through still refers to the object. -/
def Refers (s : Instances) (k : ℕ) : Prop :=
  (∃ id, s.m_servers.lookup id = some k) ∨ ∃ entry ∈ s.snapshot, entry.2 = k

instance (s : Instances) (k : ℕ) : Decidable (s.Refers k) :=
  decidable_of_iff
    ((∃ entry ∈ s.m_servers.entries, entry.2 = k) ∨ ∃ entry ∈ s.snapshot, entry.2 = k) (by
      refine or_congr_left ⟨?_, ?_⟩
      · intro h
        obtain ⟨⟨id, l⟩, hentry, rfl⟩ := h
        exact ⟨id, AList.mem_lookup_iff.mpr hentry⟩
      · intro h
        obtain ⟨id, hid⟩ := h
        exact ⟨⟨id, k⟩, AList.mem_lookup_iff.mp hid, rfl⟩)

/-- The players filed on objects that are still referred to. -/
def kept (s : Instances) : List ℕ := Ledger.heldIn ServerObject.addresses s.Refers s.objects

/-- The players that were filed last on an object that nothing refers to any more. -/
def left (s : Instances) : List ℕ :=
  Ledger.heldIn ServerObject.addresses (fun k => ¬ s.Refers k) s.objects

theorem not_refers_startInstance {s : Instances} {k : ℕ} (hk : k < s.objects.length)
    (h : ¬ s.Refers k) (initOk : Bool) : ¬ (s.startInstance initOk).Refers k := by
  intro hrefers
  cases initOk with
  | false => exact h hrefers
  | true =>
    rcases hrefers with ⟨id, hid⟩ | hentry
    · have hinsert : (s.m_servers.insert s.nextInstanceId s.objects.length).lookup id = some k := hid
      by_cases hnew : id = s.nextInstanceId
      · rw [hnew, AList.lookup_insert] at hinsert
        have hlast := Option.some.inj hinsert
        omega
      · rw [AList.lookup_insert_ne hnew] at hinsert
        exact h (Or.inl ⟨id, hinsert⟩)
    · exact h (Or.inr hentry)

theorem refers_of_stopInstance {s : Instances} {k : ℕ} {instanceId : UInt8}
    (h : ((s.stopInstance instanceId).2).Refers k) : s.Refers k := by
  rcases h with ⟨id, hid⟩ | hentry
  · exact Or.inl ⟨id, lookup_stopInstance hid⟩
  · rw [objects_stopInstance] at hentry
    exact Or.inr hentry

theorem lookup_of_mem_getServers {s : Instances} {entry : UInt8 × ℕ} (h : entry ∈ s.getServers) :
    s.m_servers.lookup entry.1 = some entry.2 := by
  obtain ⟨⟨id, k⟩, hmem, rfl⟩ := List.mem_map.mp h
  exact AList.mem_lookup_iff.mpr hmem

/-- An object that nothing refers to is out of reach of every step. -/
theorem gone_step {s : Instances} {k : ℕ} {object : ServerObject}
    (hobject : s.objects[k]? = some object) (h : ¬ s.Refers k) (a : InstanceAction) :
    (s.step a).objects[k]? = some object ∧ ¬ (s.step a).Refers k := by
  obtain ⟨hk, -⟩ := List.getElem?_eq_some_iff.mp hobject
  cases a with
  | startInstance initOk =>
    refine ⟨?_, not_refers_startInstance hk h initOk⟩
    show (s.startInstance initOk).objects[k]? = some object
    rw [objects_startInstance, List.getElem?_append_left hk, hobject]
  | stopInstance instanceId =>
    refine ⟨?_, fun hrefers => h (refers_of_stopInstance hrefers)⟩
    show ((s.stopInstance instanceId).2).objects[k]? = some object
    rw [objects_stopInstance]
    exact hobject
  | getServers =>
    simp only [step]
    split
    · refine ⟨hobject, ?_⟩
      intro hrefers
      rcases hrefers with hmap | ⟨entry, hentry, rfl⟩
      · exact h (Or.inl hmap)
      · exact h (Or.inl ⟨entry.1, lookup_of_mem_getServers hentry⟩)
    · exact ⟨hobject, h⟩
  | event event =>
    show (s.onEvent event).objects[k]? = _ ∧ ¬ (s.onEvent event).Refers k
    rcases s.onEvent_cases event with hsame | ⟨instanceId, l, rest, other, hfront, -, hserve⟩
    · rw [hsame]
      exact ⟨hobject, h⟩
    · have hne : l ≠ k := by
        intro hlk
        exact h (Or.inr ⟨(instanceId, l), hfront ▸ List.mem_cons_self .., hlk⟩)
      rw [hserve]
      exact ⟨(List.getElem?_set_ne hne).trans hobject, h⟩
  | nextServer =>
    refine ⟨hobject, ?_⟩
    intro hrefers
    rcases hrefers with hmap | ⟨entry, hentry, hk⟩
    · exact h (Or.inl hmap)
    · exact h (Or.inr ⟨entry, List.mem_of_mem_tail hentry, hk⟩)

theorem gone_exec {s : Instances} {k : ℕ} {object : ServerObject}
    (hobject : s.objects[k]? = some object) (h : ¬ s.Refers k) (as : List InstanceAction) :
    (exec step s as).objects[k]? = some object ∧ ¬ (exec step s as).Refers k :=
  exec_invariant (I := fun s : Instances => s.objects[k]? = some object ∧ ¬ s.Refers k) as
    ⟨hobject, h⟩
    fun _ a hs => gone_step hs.1 hs.2 a

theorem accounted_exec {s : Instances} (h : s.Accounted) (as : List InstanceAction) :
    (exec step s as).Accounted :=
  exec_invariant as h fun _ a h => accounted_step h a

theorem accounted_start : Accounted {} := List.Perm.refl _

/-- Over any run, every player that was created has been deleted, or is filed on an object that
is referred to, or was filed last on one that is not, and all of this once: none is deleted
twice, none is on two servers, and no deleted one is on any. -/
theorem players_accounted (as : List InstanceAction) :
    (exec step {} as).freed ++ ((exec step {} as).kept ++ (exec step {} as).left) ~
      List.range (exec step {} as).next :=
  ((Ledger.heldIn_perm _ _).append_left _).trans (accounted_exec accounted_start as)

theorem not_mem_freed {s : Instances} (h : s.Accounted) {k : ℕ} {object : ServerObject}
    (hobject : s.objects[k]? = some object) {address : ℕ} (haddress : address ∈ object.addresses) :
    address ∉ s.freed := by
  have hnodup : (s.freed ++ s.filed).Nodup := h.symm.nodup List.nodup_range
  have hfiled : address ∈ s.filed :=
    List.mem_flatMap.mpr ⟨object, List.mem_of_getElem? hobject, haddress⟩
  exact fun hfreed => (List.disjoint_of_nodup_append hnodup) hfreed hfiled

/-- Stopping a server leaks its players. Once nothing refers to it, no further run deletes
any of them or changes the server in any other way. -/
theorem players_leaked (as further : List InstanceAction) {k : ℕ} {object : ServerObject}
    (hobject : (exec step {} as).objects[k]? = some object)
    (hgone : ¬ (exec step {} as).Refers k) :
    (exec step (exec step {} as) further).objects[k]? = some object ∧
      ∀ address ∈ object.addresses, address ∉ (exec step (exec step {} as) further).freed := by
  obtain ⟨hsame, -⟩ := gone_exec hobject hgone further
  have haccounted := accounted_exec (accounted_exec accounted_start as) further
  exact ⟨hsame, fun address haddress => not_mem_freed haccounted hsame haddress⟩

/-- A server that is stopped while it has a player. -/
def stoppedServer : List InstanceAction :=
  [.startInstance true, .getServers, .event (.connect 1 7), .nextServer, .stopInstance 0]

theorem not_refers_stoppedServer : ¬ (exec step {} stoppedServer).Refers 0 := by
  intro h
  rcases h with ⟨id, hid⟩ | ⟨entry, hentry, -⟩
  · have hempty : (exec step {} stoppedServer).m_servers = ∅ := rfl
    rw [hempty] at hid
    cases hid
  · cases hentry

def afterStop : List InstanceAction :=
  [.startInstance true, .getServers, .event (.disconnect 1 7), .nextServer]

theorem players_leaked_stoppedServer :
    ∃ object, (exec step {} stoppedServer).objects[0]? = some object ∧ 0 ∈ object.addresses ∧
      ¬ (exec step {} stoppedServer).Refers 0 ∧
      (exec step (exec step {} stoppedServer) afterStop).objects[0]? = some object ∧
      ∀ address ∈ object.addresses,
        address ∉ (exec step (exec step {} stoppedServer) afterStop).freed := by
  have hplayer : (exec step {} stoppedServer).objects[0]?.map ServerObject.addresses = some [0] :=
    rfl
  obtain ⟨object, hobject, haddresses⟩ := Option.map_eq_some_iff.mp hplayer
  obtain ⟨hsame, hkept⟩ := players_leaked stoppedServer afterStop hobject not_refers_stoppedServer
  exact ⟨object, hobject, haddresses ▸ List.mem_cons_self .., not_refers_stoppedServer, hsame, hkept⟩

/-! ### Shutting down -/

/-- The console thread starts and stops servers, and the network thread does the rest. -/
def isConsole : InstanceAction → Bool
  | .startInstance _ => true
  | .stopInstance _ => true
  | _ => false

/-- What the command `shutdown` does, with the map as it is when the command is given. -/
def shutdown (s : Instances) : List InstanceAction := s.m_servers.keys.map .stopInstance

def StopsFound (s : Instances) (a : InstanceAction) : Prop :=
  ∀ id, a = .stopInstance id → (s.stopInstance id).1 = true

theorem m_servers_step {s : Instances} {a : InstanceAction} (h : isConsole a = false) :
    (s.step a).m_servers = s.m_servers := by
  cases a with
  | startInstance initOk => cases h
  | stopInstance instanceId => cases h
  | getServers =>
    simp only [step]
    split
    · rfl
    · rfl
  | event event =>
    show (s.onEvent event).m_servers = _
    rcases s.onEvent_cases event with hsame | ⟨instanceId, k, rest, object, -, -, hserve⟩
    · rw [hsame]
    · rw [hserve]
      rfl
  | nextServer => rfl

theorem stopInstance_found {s : Instances} {id : UInt8} (h : id ∈ s.m_servers) :
    s.stopInstance id = (true, { s with m_servers := s.m_servers.erase id }) := by
  obtain ⟨k, hk⟩ := Option.isSome_iff_exists.mp (AList.lookup_isSome.mpr h)
  rw [stopInstance, hk]
  rfl

theorem stops_exec {s : Instances} {as : List InstanceAction} {ids : List UInt8}
    (hids : ids.Nodup) (hall : ∀ id, id ∈ s.m_servers ↔ id ∈ ids)
    (has : as.filter isConsole = ids.map .stopInstance) :
    (∀ id, id ∉ (exec step s as).m_servers) ∧ Along step StopsFound s as := by
  induction as generalizing s ids with
  | nil =>
    obtain rfl : ids = [] := List.map_eq_nil_iff.mp has.symm
    exact ⟨fun id hid => absurd ((hall id).mp hid) List.not_mem_nil, trivial⟩
  | cons a as ih =>
    cases hconsole : isConsole a with
    | false =>
      have hrest : as.filter isConsole = ids.map .stopInstance := by
        rwa [List.filter_cons_of_neg (by rw [hconsole]; exact Bool.false_ne_true)] at has
      have hkept : ∀ id, id ∈ (s.step a).m_servers ↔ id ∈ ids := by
        rw [m_servers_step hconsole]
        exact hall
      obtain ⟨hempty, hfound⟩ := ih hids hkept hrest
      refine ⟨hempty, ?_, hfound⟩
      intro id ha
      rw [ha] at hconsole
      cases hconsole
    | true =>
      rw [List.filter_cons_of_pos hconsole] at has
      obtain ⟨id, rest, rfl, rfl, hrest⟩ := List.map_eq_cons_iff.mp has.symm
      obtain ⟨hid, hnodup⟩ := List.nodup_cons.mp hids
      have hstop := stopInstance_found ((hall id).mpr (List.mem_cons_self ..))
      have hleft : ∀ other, other ∈ (s.step (.stopInstance id)).m_servers ↔ other ∈ rest := by
        intro other
        show other ∈ ((s.stopInstance id).2).m_servers ↔ _
        rw [hstop, AList.mem_erase, hall, List.mem_cons]
        constructor
        · intro h
          exact h.2.resolve_left h.1
        · intro h
          exact ⟨fun heq => hid (heq ▸ h), Or.inr h⟩
      obtain ⟨hempty, hfound⟩ := ih hnodup hleft hrest.symm
      refine ⟨hempty, ?_, hfound⟩
      intro other hother
      obtain rfl := InstanceAction.stopInstance.inj hother
      rw [hstop]

theorem idle_step {s : Instances} (hempty : s.m_servers = ∅) (hsnapshot : s.snapshot = [])
    {a : InstanceAction} (h : isConsole a = false) : s.step a = s := by
  cases a with
  | startInstance initOk => cases h
  | stopInstance instanceId => cases h
  | getServers =>
    cases s
    cases hempty
    cases hsnapshot
    rfl
  | event event =>
    show s.onEvent event = s
    unfold onEvent
    rw [hsnapshot]
  | nextServer =>
    cases s
    cases hsnapshot
    rfl

/-- Whatever the network thread does in between, the command `shutdown` finds every server
it stops and leaves none; and once the sweep it came into is over, the network thread does
nothing more. -/
theorem shutdown_stops_all (s : Instances) {as : List InstanceAction}
    (has : as.filter isConsole = s.shutdown) :
    (exec step s as).m_servers = ∅ ∧ Along step StopsFound s as ∧
      ∀ further, (∀ a ∈ further, isConsole a = false) → (exec step s as).snapshot = [] →
        exec step (exec step s as) further = exec step s as := by
  obtain ⟨hnone, hfound⟩ := stops_exec (AList.keys_nodup s.m_servers) (fun id => AList.mem_keys) has
  have hempty : (exec step s as).m_servers = ∅ := by
    have hentries : (exec step s as).m_servers.entries = [] := by
      rw [List.eq_nil_iff_forall_not_mem]
      intro entry hentry
      exact hnone entry.1 (AList.mem_keys.mpr (List.mem_map_of_mem hentry))
    exact AList.ext hentries
  refine ⟨hempty, hfound, ?_⟩
  intro further hfurther hsnapshot
  induction further with
  | nil => rfl
  | cons a further ih =>
    obtain ⟨ha, hrest⟩ := List.forall_mem_cons.mp hfurther
    show exec step ((exec step s as).step a) further = _
    rw [idle_step hempty hsnapshot ha]
    exact ih hrest

/-- The command comes into a sweep over two servers. -/
def shutdownRun : List InstanceAction :=
  [.event (.connect 1 7), .stopInstance 1, .nextServer, .event (.connect 2 8), .stopInstance 0,
    .nextServer]

theorem shutdown_stops_all_two :
    shutdownRun.filter isConsole =
        (exec step {} [.startInstance true, .startInstance true, .getServers]).shutdown ∧
      (exec step (exec step {} [.startInstance true, .startInstance true, .getServers])
        shutdownRun).m_servers = ∅ ∧
      Along step StopsFound (exec step {} [.startInstance true, .startInstance true, .getServers])
        shutdownRun ∧
      ∀ further, (∀ a ∈ further, isConsole a = false) →
        (exec step (exec step {} [.startInstance true, .startInstance true, .getServers])
          shutdownRun).snapshot = [] →
        exec step (exec step (exec step {} [.startInstance true, .startInstance true, .getServers])
            shutdownRun) further =
          exec step (exec step {} [.startInstance true, .startInstance true, .getServers])
            shutdownRun := by
  have has : shutdownRun.filter isConsole =
      (exec step {} [.startInstance true, .startInstance true, .getServers]).shutdown := rfl
  exact ⟨has, shutdown_stops_all _ has⟩

end Instances

end GrowServer
