import GrowServer.Lib.Channel
import GrowServer.Lib.Run
import GrowServer.Player.PlayerPool
import GrowServer.Utils.TextParse

/-!
# EventPool (Event/EventPool.cpp)

The queue between the network thread and the worker. The network thread appends
events, the worker looks at the front, runs the handler registered under its
name, or logs that there is none, and goes round its loop.
-/

namespace GrowServer
open LittleEndian RunLogic Fifo

/-- `EventData`: the name of the event and the arguments of its handler. A server
instance is referred to by its id. -/
structure EventData where
  eventName : Bytes
  pAvatar : PlayerPtr
  pServer : UInt8
  eventData : Bytes
  eventParser : TextParse
  pTankData : Option TankPacketData := none
  deriving DecidableEq

structure EventPool (H : Type) where
  m_data : AList (fun _ : Bytes => H)
  m_workerQueue : List EventData := []

inductive Dispatch (H : Type) where
  | run (eventFunction : H) (data : EventData)
  | unhandled (data : EventData)

def Dispatch.data {H : Type} : Dispatch H → EventData
  | run _ data => data
  | unhandled data => data

namespace EventPool
variable {H : Type}

def getEventIfExists (this : EventPool H) (keyName : Bytes) : Option H :=
  this.m_data.lookup keyName

def addQueue (this : EventPool H) (data : EventData) : EventPool H :=
  { this with m_workerQueue := this.m_workerQueue ++ [data] }

/-- One iteration of the worker (EventPool.cpp:56-80). The event is at the front
while its handler runs; behind an unhandled one the loop continues at once. -/
def servicePoll (this : EventPool H) : Option (Dispatch H) × EventPool H :=
  match this.m_workerQueue with
  | [] => (none, this)
  | pairData :: queue =>
    match this.getEventIfExists pairData.eventName with
    | none => (some (.unhandled pairData), this)
    | some eventFunction =>
      (some (.run eventFunction pairData), { this with m_workerQueue := queue })

def FrontRegistered (this : EventPool H) : Prop :=
  ∀ data ∈ this.m_workerQueue.head?, (this.getEventIfExists data.eventName).isSome

theorem servicePoll_nil (this : EventPool H) (h : this.m_workerQueue = []) :
    this.servicePoll = (none, this) := by
  unfold servicePoll
  rw [h]

theorem servicePoll_cons (this : EventPool H) (data : EventData) (queue : List EventData)
    (h : this.m_workerQueue = data :: queue) :
    ∃ dispatch this', this.servicePoll = (some dispatch, this') ∧ dispatch.data = data ∧
      this'.m_data = this.m_data ∧
      this'.m_workerQueue =
        if (this.getEventIfExists data.eventName).isSome then queue else data :: queue := by
  unfold servicePoll
  rw [h]
  cases hfun : this.getEventIfExists data.eventName with
  | none => exact ⟨.unhandled data, this, by simp only [hfun], rfl, rfl, by simpa using h⟩
  | some eventFunction =>
    exact ⟨.run eventFunction data, { this with m_workerQueue := queue }, by simp only [hfun],
      rfl, rfl, rfl⟩

end EventPool

/-! ### Runs of the two parties -/

/-- The pool with its history: the events `AddQueue` appended and those the worker
processed, by running a handler or logging them, both in order. -/
structure EventHistory (H : Type) where
  pool : EventPool H
  enqueued : List EventData := []
  processed : List EventData := []

inductive EventAction where
  | addQueue (data : EventData)
  | servicePoll

namespace EventHistory
variable {H : Type}

def start (m_data : AList (fun _ : Bytes => H)) : EventHistory H := { pool := { m_data } }

def step (s : EventHistory H) : EventAction → EventHistory H
  | .addQueue data => { s with pool := s.pool.addQueue data, enqueued := s.enqueued ++ [data] }
  | .servicePoll =>
    { s with
      pool := s.pool.servicePoll.2
      processed := s.processed ++ (s.pool.servicePoll.1.map Dispatch.data).toList }

/-- Exactly once and in order: what was processed is the beginning of what was
enqueued, and an iteration on a queue that is not empty removes the event it
processed and no other. -/
structure DeliversInOrder (s : EventHistory H) (a : EventAction) : Prop where
  processed_prefix : (s.step a).processed <+: (s.step a).enqueued
  removes_front : a = .servicePoll → ∀ data queue, s.pool.m_workerQueue = data :: queue →
    (s.step a).processed = s.processed ++ [data] ∧ (s.step a).pool.m_workerQueue = queue

def IterationRegistered (s : EventHistory H) (a : EventAction) : Prop :=
  a = .servicePoll → s.pool.FrontRegistered

def Refines (s : EventHistory H) (c : Channel EventData) : Prop :=
  s.enqueued = c.sent ∧ s.processed = c.delivered ∧ s.pool.m_workerQueue = c.pending

def channelStep (c : Channel EventData) : EventAction → Channel EventData
  | .addQueue data => c.send data
  | .servicePoll => c.deliver

theorem step_refines (s : EventHistory H) (c : Channel EventData) (a : EventAction)
    (h : s.Refines c) (hreg : s.IterationRegistered a) :
    (s.step a).Refines (channelStep c a) := by
  obtain ⟨hsent, hdelivered, hpending⟩ := h
  cases a with
  | addQueue data =>
    exact ⟨congrArg (· ++ [data]) hsent, hdelivered, congrArg (· ++ [data]) hpending⟩
  | servicePoll =>
    cases hqueue : s.pool.m_workerQueue with
    | nil =>
      have hpoll := s.pool.servicePoll_nil hqueue
      have hnil : c.pending = [] := hpending.symm.trans hqueue
      simp only [Refines, step, channelStep, Channel.deliver, hpoll, hnil]
      exact ⟨hsent, by simpa using hdelivered, hqueue⟩
    | cons data queue =>
      obtain ⟨dispatch, pool', hpoll, hdata, -, hqueue'⟩ :=
        s.pool.servicePoll_cons data queue hqueue
      have hsome : (s.pool.getEventIfExists data.eventName).isSome :=
        hreg rfl data (by rw [hqueue]; rfl)
      have hcons : c.pending = data :: queue := hpending.symm.trans hqueue
      rw [if_pos hsome] at hqueue'
      simp only [Refines, step, channelStep, Channel.deliver, hpoll, hcons, Option.map_some, hdata]
      exact ⟨hsent, by rw [hdelivered]; rfl, hqueue'⟩

theorem deliversInOrder_iff (s : EventHistory H) (a : EventAction) (h : ∃ c, s.Refines c) :
    s.DeliversInOrder a ↔ s.IterationRegistered a := by
  obtain ⟨c, hc⟩ := h
  constructor
  · intro hgood ha data hfront
    obtain ⟨queue, hqueue⟩ : ∃ queue, s.pool.m_workerQueue = data :: queue :=
      List.head?_eq_some_iff.mp hfront
    obtain ⟨-, hremoved⟩ := hgood.removes_front ha data queue hqueue
    obtain ⟨dispatch, pool', hpoll, -, -, hqueue'⟩ := s.pool.servicePoll_cons data queue hqueue
    by_contra hnone
    rw [if_neg hnone] at hqueue'
    subst ha
    simp only [step, hpoll] at hremoved
    rw [hqueue'] at hremoved
    exact List.cons_ne_self data queue hremoved
  · intro hreg
    obtain ⟨hsent, hdelivered, hpending⟩ := step_refines s c a hc hreg
    refine ⟨?_, ?_⟩
    · rw [hsent, hdelivered]
      exact Channel.delivered_prefix _
    · intro ha data queue hqueue
      subst ha
      have hcons : c.pending = data :: queue := hc.2.2.symm.trans hqueue
      rw [hdelivered, hpending, hc.2.1]
      simp only [channelStep, Channel.deliver, hcons]
      exact ⟨rfl, rfl⟩

/-- Over every interleaving of the two parties, the worker delivers each event
exactly once and in order exactly when no iteration starts on an event that no
handler is registered for. -/
theorem along_deliversInOrder_iff (m_data : AList (fun _ : Bytes => H))
    (as : List EventAction) :
    Along step DeliversInOrder (start m_data) as ↔
      Along step IterationRegistered (start m_data) as := by
  refine along_iff (I := fun s => ∃ c, s.Refines c) ⟨Channel.empty, rfl, rfl, rfl⟩ ?_ ?_
    (along_true _ _)
  · intro s a hs _ hreg
    obtain ⟨c, hc⟩ := hs
    exact ⟨_, step_refines s c a hc hreg⟩
  · intro s a hs _
    exact deliversInOrder_iff s a hs

theorem not_along_deliversInOrder :
    ¬ Along step DeliversInOrder (start (H := Unit) ∅)
      [.addQueue ⟨ascii "quit", ⟨0, 0⟩, 0, ascii "quit", {}, none⟩, .servicePoll] := by
  intro h
  have hiteration := h.2.1
  obtain ⟨-, hremoved⟩ := hiteration.removes_front rfl _ _ rfl
  revert hremoved
  decide

end EventHistory

end GrowServer
