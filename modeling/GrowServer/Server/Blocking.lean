import GrowServer.Server.System

/-!
# A text that no handler is registered for (Event/EventPool.cpp, EventPool::ServicePoll)

The worker logs such a text and goes round its loop without taking it from the queue. What
that means for the other players, over any further run of both threads.
-/

namespace GrowServer
open LittleEndian RunLogic Outcome

namespace System

/-- The iterations of the worker in a run. -/
def polls : List SystemAction → List Globals
  | [] => []
  | .servicePoll globals :: actions => globals :: polls actions
  | .event _ _ :: actions => polls actions

def Blocked (s : System) (data : EventData) : Prop :=
  s.eventPool.m_workerQueue.head? = some data ∧ textEvents.lookup data.eventName = none

section Blocked
variable {s s' : System} {data : EventData}

theorem blocked_event (h : s.Blocked data) (instanceId : UInt8) (event : ENetEvent) :
    (s.onEvent instanceId event).Blocked data := by
  obtain ⟨hfront, hnone⟩ := h
  obtain ⟨queue, hqueue⟩ := List.head?_eq_some_iff.mp hfront
  have hpool : (s.onEvent instanceId event).eventPool.m_workerQueue =
      s.eventPool.m_workerQueue ++ (s.serverPool.handleEvent instanceId s.next event).2.1 :=
    Threads.addQueue_foldl _ _
  refine ⟨?_, hnone⟩
  rw [hpool, hqueue]
  rfl

/-- An iteration handles the same text again, and leaves it where it is. -/
theorem blocked_poll (hreachable : s.Reachable) (h : s.Blocked data) {globals : Globals}
    (hstep : s.step (.servicePoll globals) = .ok s') :
    s'.Blocked data ∧
      s'.handled = s.handled ++ [(data.pAvatar.address, message globals data)] := by
  obtain ⟨hfront, hnone⟩ := h
  obtain ⟨queue, hqueue⟩ := List.head?_eq_some_iff.mp hfront
  have htext := hreachable.queued.texts data (hqueue ▸ List.mem_cons_self ..)
  have hsame : s.eventPool.servicePoll.2 = s.eventPool := by
    unfold EventPool.servicePoll EventPool.getEventIfExists
    rw [hqueue, hreachable.queued.m_data]
    simp only [hnone]
  rw [step_front hreachable.queued.m_data hqueue htext] at hstep
  cases halive : s.players data.pAvatar.address with
  | none =>
    simp only [halive, ignoresAvatar_of_unregistered hnone] at hstep
    cases hstep
  | some player =>
    cases hafter : Worker.handle { player } (message globals data) with
    | error fault =>
      simp only [halive, hafter] at hstep
      cases hstep
    | ok after =>
      simp only [halive, hafter] at hstep
      obtain rfl := Except.ok.inj hstep
      refine ⟨⟨?_, hnone⟩, rfl⟩
      show s.eventPool.servicePoll.2.m_workerQueue.head? = some data
      rw [hsame, hfront]

end Blocked

/-- Once a text without a handler is at the front, no further run handles any other text:
every iteration handles this one again, until its player is deleted, from when on the next
iteration ends the server. -/
theorem blocked_forever {serverPool : ServerPool} {actions further : List SystemAction}
    {s s' : System} {data : EventData} (hempty : NoPlayers serverPool)
    (hrun : exec (untilFailure step) (.ok (start serverPool)) actions = .ok s)
    (hfront : s.eventPool.m_workerQueue.head? = some data)
    (hnone : textEvents.lookup data.eventName = none)
    (hfurther : exec (untilFailure step) (.ok s) further = .ok s') :
    s'.eventPool.m_workerQueue.head? = some data ∧
      s'.handled = s.handled ++
        (polls further).map (fun globals => (data.pAvatar.address, message globals data)) ∧
      (s'.players data.pAvatar.address = none → ∀ globals,
        s'.step (.servicePoll globals) = .error (.deletedPlayer data.pAvatar.address)) := by
  have hblocked : s.Blocked data := ⟨hfront, hnone⟩
  have hreachable := reachable_run hempty hrun
  clear hrun hfront hnone
  induction further generalizing s with
  | nil =>
    obtain rfl := Except.ok.inj hfurther
    refine ⟨hblocked.1, (List.append_nil _).symm, ?_⟩
    intro hdeleted globals
    obtain ⟨queue, hqueue⟩ := List.head?_eq_some_iff.mp hblocked.1
    rw [step_front hreachable.queued.m_data hqueue
      (hreachable.queued.texts data (hqueue ▸ List.mem_cons_self ..))]
    simp only [hdeleted, ignoresAvatar_of_unregistered hblocked.2]
  | cons a further ih =>
    obtain ⟨next, hstep, hrest⟩ := exec_cons_eq_ok.mp hfurther
    have hnext := reachable_step hreachable hstep
    cases a with
    | event instanceId event =>
      obtain rfl := Except.ok.inj hstep
      have hlast := ih hrest (blocked_event hblocked instanceId event) hnext
      exact hlast
    | servicePoll globals =>
      obtain ⟨hstill, hhandled⟩ := blocked_poll hreachable hblocked hstep
      obtain ⟨hhead, hall, hdeleted⟩ := ih hrest hstill hnext
      refine ⟨hhead, ?_, hdeleted⟩
      rw [hall, hhandled, List.append_assoc]
      rfl

def fooText : ENetPacket := ⟨0, [2, 0, 0, 0, 102, 111, 111, 0]⟩

/-- The first of two players sends a text without a handler, and the second an action. -/
def blockedRun : List SystemAction :=
  [.event 0 (.connect 1 7), .event 0 (.connect 2 8), .event 0 (.receive 1 7 fooText),
    .event 0 (.receive 2 8 helloText)]

def furtherRun : List SystemAction := [.servicePoll ⟨{}, none⟩, .servicePoll ⟨{}, none⟩]

theorem blocked_forever_foo :
    ∃ s s', exec (untilFailure step) (.ok (start oneServer)) blockedRun = .ok s ∧
      exec (untilFailure step) (.ok s) furtherRun = .ok s' ∧
      s'.eventPool.m_workerQueue.head? = some (textEvent 0 ⟨0, 1⟩ (ascii "foo")) ∧
      s'.handled = s.handled ++ (polls furtherRun).map (fun globals =>
        (0, message globals (textEvent 0 ⟨0, 1⟩ (ascii "foo")))) ∧
      (s'.players 0 = none → ∀ globals,
        s'.step (.servicePoll globals) = .error (.deletedPlayer 0)) := by
  obtain ⟨s, hrun⟩ : ∃ s, exec (untilFailure step) (.ok (start oneServer)) blockedRun = .ok s :=
    ⟨_, rfl⟩
  have hfront : (exec (untilFailure step) (.ok (start oneServer)) blockedRun).toOption.map
      (fun s => s.eventPool.m_workerQueue.head?) =
        some (some (textEvent 0 ⟨0, 1⟩ (ascii "foo"))) := rfl
  obtain ⟨s', hfurther⟩ : ∃ s', (exec (untilFailure step) (.ok (start oneServer)) blockedRun >>=
      fun s => exec (untilFailure step) (.ok s) furtherRun) = .ok s' := ⟨_, rfl⟩
  rw [hrun] at hfront hfurther
  exact ⟨s, s', hrun, hfurther, blocked_forever noPlayers_oneServer hrun
    (Option.some.inj hfront) (by decide) hfurther⟩

end System

end GrowServer
