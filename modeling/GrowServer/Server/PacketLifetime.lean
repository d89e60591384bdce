import GrowServer.Lib.Run
import GrowServer.Server.ServicePoll
import Mathlib.Data.List.Perm.Basic

/-!
# The packets ENet hands over (Server/ServerPool.cpp, ServerPool::ServicePoll)

A RECEIVE event passes its packet to the application, which has to destroy it. The run
of the network thread beside the packets that were delivered and not yet destroyed.
-/

namespace GrowServer
open RunLogic

/-- An event fetched from the host of one server. -/
structure FetchedEvent where
  instanceId : UInt8
  event : ENetEvent
  deriving DecidableEq, Repr

def ENetEvent.delivered : ENetEvent → List ENetPacket
  | .receive _ _ packet => [packet]
  | _ => []

/-- The players of every server, and the packets it has still to destroy. -/
structure PacketHistory where
  playerPools : UInt8 → PlayerPool
  next : ℕ := 0
  outstanding : List ENetPacket := []

namespace PacketHistory

def handled (s : PacketHistory) (a : FetchedEvent) : Handled :=
  handleEvent a.instanceId (s.playerPools a.instanceId) s.next a.event

def step (s : PacketHistory) (a : FetchedEvent) : PacketHistory where
  playerPools := Function.update s.playerPools a.instanceId (s.handled a).playerPool
  next := (s.handled a).next
  outstanding := (s.outstanding ++ a.event.delivered).diff (s.handled a).destroyed

/-- Until the next event is fetched, every packet delivered is destroyed, and once. -/
structure ReleasesAll (s : PacketHistory) (a : FetchedEvent) : Prop where
  once : (s.handled a).destroyed.Perm (s.outstanding ++ a.event.delivered)
  none_left : (s.step a).outstanding = []

/-- A received packet has a length that is not accepted, or an unknown sender. -/
def RefusesPacket (s : PacketHistory) (a : FetchedEvent) : Prop :=
  ∀ peer connectID packet, a.event = .receive peer connectID packet →
    ¬ (acceptsLength packet ∧ ((s.playerPools a.instanceId).getPlayer connectID).isSome)

def Settled (s : PacketHistory) : Prop := s.outstanding = []

theorem destroyed_of_delivered_nil {s : PacketHistory} {a : FetchedEvent}
    (h : a.event.delivered = []) : (s.handled a).destroyed = [] := by
  obtain ⟨instanceId, event⟩ := a
  cases event with
  | none => rfl
  | connect peer connectID =>
    cases hplayer : (s.playerPools instanceId).getPlayer connectID with
    | none => simp only [handled, handleEvent_connect_none _ _ _ hplayer]
    | some player => simp only [handled, handleEvent_connect_some _ _ _ hplayer]
  | disconnect peer connectID =>
    cases hplayer : (s.playerPools instanceId).getPlayer connectID with
    | none => simp only [handled, handleEvent_disconnect_none _ _ _ hplayer]
    | some player => simp only [handled, handleEvent_disconnect_some _ _ _ hplayer]
  | receive peer connectID packet => cases h

theorem diff_self {α : Type} [DecidableEq α] (l : List α) : l.diff l = [] := by
  induction l with
  | nil => rfl
  | cons a l ih => rw [List.cons_diff_of_mem (List.mem_cons_self ..), List.erase_cons_head, ih]

/-- An event delivers one packet at most. -/
theorem eq_delivered_of_perm {event : ENetEvent} {packets : List ENetPacket}
    (h : packets.Perm event.delivered) : packets = event.delivered := by
  cases event with
  | receive peer connectID packet => exact List.perm_singleton.mp h
  | _ => exact List.perm_nil.mp h

/-- From a settled state, the event is settled exactly when what it delivers is what is
destroyed. -/
theorem releasesAll_iff_destroyed {s : PacketHistory} {a : FetchedEvent} (h : s.Settled) :
    s.ReleasesAll a ↔ (s.handled a).destroyed = a.event.delivered := by
  have hdelivered : s.outstanding ++ a.event.delivered = a.event.delivered := by
    rw [h, List.nil_append]
  constructor
  · intro hreleases
    have honce := hreleases.once
    rw [hdelivered] at honce
    exact eq_delivered_of_perm honce
  · intro heq
    refine ⟨by rw [hdelivered, heq], ?_⟩
    show (s.outstanding ++ a.event.delivered).diff (s.handled a).destroyed = []
    rw [hdelivered, heq, diff_self]

theorem destroyed_eq_delivered_iff (s : PacketHistory) (a : FetchedEvent) :
    (s.handled a).destroyed = a.event.delivered ↔ s.RefusesPacket a := by
  obtain ⟨instanceId, event⟩ := a
  cases event with
  | receive peer connectID packet =>
    have hdestroyed := destroyed_receive instanceId (s.playerPools instanceId) s.next peer
      connectID packet
    rw [handled, hdestroyed]
    by_cases hkept : acceptsLength packet ∧
        ((s.playerPools instanceId).getPlayer connectID).isSome
    · rw [if_pos hkept]
      refine iff_of_false ?_ fun h => h peer connectID packet rfl hkept
      intro h
      cases h
    · rw [if_neg hkept]
      refine iff_of_true rfl ?_
      intro peer' connectID' packet' h
      cases h
      exact hkept
  | none => exact iff_of_true (destroyed_of_delivered_nil rfl) (fun _ _ _ h => by cases h)
  | connect peer connectID =>
    exact iff_of_true (destroyed_of_delivered_nil rfl) (fun _ _ _ h => by cases h)
  | disconnect peer connectID =>
    exact iff_of_true (destroyed_of_delivered_nil rfl) (fun _ _ _ h => by cases h)

theorem releasesAll_iff {s : PacketHistory} (a : FetchedEvent) (h : s.Settled) :
    s.ReleasesAll a ↔ s.RefusesPacket a :=
  (releasesAll_iff_destroyed h).trans (s.destroyed_eq_delivered_iff a)

/-- Over every run of events, of any packets from any senders, each packet is destroyed
exactly once in its turn exactly when no packet of a known player is accepted. -/
theorem along_releasesAll_iff (playerPools : UInt8 → PlayerPool) (next : ℕ)
    (as : List FetchedEvent) :
    Along step ReleasesAll { playerPools, next } as ↔
      Along step RefusesPacket { playerPools, next } as := by
  have hstart : Settled { playerPools, next } := rfl
  apply along_iff hstart (E := fun _ _ => True)
  · intro s a hs _ hrefuses
    exact ((releasesAll_iff a hs).mpr hrefuses).none_left
  · intro s a hs _
    exact releasesAll_iff a hs
  · exact along_true _ _

def shortText : ENetPacket := ⟨0, [2, 0, 0, 0, 97]⟩

theorem not_along_releasesAll :
    ¬ Along step ReleasesAll { playerPools := fun _ => {} }
      [⟨0, .connect 0 7⟩, ⟨0, .receive 0 7 shortText⟩] := by
  intro h
  have hleft := h.2.1.none_left
  revert hleft
  decide

end PacketHistory

end GrowServer
