import GrowServer.Event.AccountGrants
import GrowServer.Lib.Channel
import GrowServer.Server.Process

/-!
# From the packets to the handlers (Server/ServerPool.cpp, Event/EventPool.cpp)

The texts that the network thread takes out of packets, and those that the worker handles, in
any run of the process. In between is one queue for all players of all servers.
-/

namespace GrowServer
open LittleEndian RunLogic Fifo Outcome

namespace Process

/-- The text that a step takes out of a packet, with the address of the player it is from. -/
def arrivals (s : Process) : ProcessAction → List (ℕ × Bytes)
  | .instances (.event event) =>
    s.instances.polled.toList.flatMap fun polled =>
      (System.textsIn polled.2.playerPool event).map fun entry => (entry.1.address, entry.2)
  | _ => []

/-- No handler is registered for the text. -/
def Unregistered (entry : ℕ × Bytes) : Prop := textEvents.lookup (eventNameOf entry.2) = none

def entryOf (data : EventData) : ℕ × Bytes := (data.pAvatar.address, data.eventData)

def waiting (s : Process) : List (ℕ × Bytes) := s.eventPool.m_workerQueue.map entryOf

def handledTexts (s : Process) : List (ℕ × Bytes) :=
  s.handled.map fun entry => (entry.1, entry.2.text)

/-- The queue is a channel for what was sent, with the worker as its receiver. -/
def Delivers (sent : List (ℕ × Bytes)) (s : Process) : Prop :=
  ∃ c : Channel (ℕ × Bytes), c.sent = sent ∧ c.pending = s.waiting ∧
    c.Seen Unregistered s.handledTexts

theorem waiting_onEvent (s : Process) (event : ENetEvent) :
    (s.onEvent event).waiting = s.waiting ++ s.arrivals (.instances (.event event)) ∧
      (s.onEvent event).handledTexts = s.handledTexts := by
  cases hpolled : s.instances.polled with
  | none =>
    rw [onEvent_idle s event hpolled, arrivals, hpolled]
    exact ⟨(List.append_nil _).symm, rfl⟩
  | some entry =>
    obtain ⟨instanceId, object⟩ := entry
    obtain ⟨k, -, hevent⟩ := onEvent_polled s event hpolled
    have harrivals : s.arrivals (.instances (.event event)) =
        (handleEvent instanceId object.playerPool s.instances.next event).queued.map entryOf := by
      rw [arrivals, hpolled, System.queued_eq, List.map_map]
      exact List.append_nil _
    refine ⟨?_, by rw [hevent]; rfl⟩
    rw [harrivals, hevent]
    show (List.foldl EventPool.addQueue s.eventPool _).m_workerQueue.map entryOf = _
    rw [Threads.addQueue_foldl, List.map_append]
    rfl

/-- An iteration of the worker: nothing, or the text at the front, handled for its player, or
for one that has been deleted and that the handler does not come to. -/
inductive Iteration (s : Process) (globals : Globals) (s' : Process) : Prop where
  | idle (hempty : s.eventPool.m_workerQueue = []) (h : s' = s)
  | ignored (data : EventData) (rest : List EventData)
    (hfront : s.eventPool.m_workerQueue = data :: rest)
    (hdeleted : s.players data.pAvatar.address = none)
    (hignores : ignoresAvatar data.eventName data.eventParser = .ok true)
    (h : s' =
      { s with
        eventPool := s.eventPool.servicePoll.2
        handled := s.handled ++ [(data.pAvatar.address, System.message globals data)] })
  | handled (data : EventData) (rest : List EventData) (player : Player) (after : Avatar)
    (hfront : s.eventPool.m_workerQueue = data :: rest)
    (halive : s.players data.pAvatar.address = some player)
    (hafter : Worker.handle { player } (System.message globals data) = .ok after)
    (h : s' =
      { s with
        eventPool := s.eventPool.servicePoll.2
        players := Function.update s.players data.pAvatar.address (some after.player)
        handled := s.handled ++ [(data.pAvatar.address, System.message globals data)] })

theorem servicePoll_iteration {s s' : Process} {globals : Globals} (h : s.Sound)
    (hstep : s.step (.servicePoll globals) = .ok s') : s.Iteration globals s' := by
  cases hfront : s.eventPool.m_workerQueue with
  | nil =>
    have hpoll := s.eventPool.servicePoll_nil hfront
    have hidle : s.worker.step (.servicePoll globals) = .ok s.worker := by
      simp only [System.step, worker, hpoll]
    simp only [step, hidle] at hstep
    exact .idle hfront (Except.ok.inj hstep).symm
  | cons data rest =>
    have htext := h.queued.texts data (hfront ▸ List.mem_cons_self ..)
    have hworker : s.worker.step (.servicePoll globals) = _ :=
      System.step_front h.queued.m_data hfront htext
    cases halive : s.worker.players data.pAvatar.address with
    | none =>
      cases hused : ignoresAvatar data.eventName data.eventParser with
      | error fault =>
        simp only [step, hworker, halive, hused] at hstep
        cases hstep
      | ok ignored =>
        cases ignored with
        | false =>
          simp only [step, hworker, halive, hused] at hstep
          cases hstep
        | true =>
          simp only [step, hworker, halive, hused] at hstep
          exact .ignored data rest hfront halive hused (Except.ok.inj hstep).symm
    | some player =>
      cases hafter : Worker.handle { player } (System.message globals data) with
      | error fault =>
        simp only [step, hworker, halive, hafter] at hstep
        cases hstep
      | ok after =>
        simp only [step, hworker, halive, hafter] at hstep
        exact .handled data rest player after hfront halive hafter (Except.ok.inj hstep).symm

/-- What an iteration does to the queue and to the texts that were handled. -/
theorem Iteration.passes {s s' : Process} {globals : Globals} (h : s.Iteration globals s') :
    s.eventPool.m_workerQueue = [] ∧ s' = s ∨
      ∃ data rest, s.eventPool.m_workerQueue = data :: rest ∧
        s'.handledTexts = s.handledTexts ++ [entryOf data] ∧
        s'.waiting = s.eventPool.servicePoll.2.m_workerQueue.map entryOf := by
  cases h with
  | idle hempty hsame => exact Or.inl ⟨hempty, hsame⟩
  | ignored data rest hfront hdeleted hignores hs' =>
    rw [hs']
    exact Or.inr ⟨data, rest, hfront, List.map_append, rfl⟩
  | handled data rest player after hfront halive hafter hs' =>
    rw [hs']
    exact Or.inr ⟨data, rest, hfront, List.map_append, rfl⟩

/-- The text at the front is taken out if a handler is registered for it. -/
theorem waiting_servicePoll {s : Process} (h : s.Sound) {data : EventData} {rest : List EventData}
    (hfront : s.eventPool.m_workerQueue = data :: rest) :
    Unregistered (entryOf data) ∧ s.eventPool.servicePoll.2.m_workerQueue = data :: rest ∨
      ¬ Unregistered (entryOf data) ∧ s.eventPool.servicePoll.2.m_workerQueue = rest := by
  obtain ⟨dispatch, pool', hpoll, -, -, hqueue⟩ := s.eventPool.servicePoll_cons data rest hfront
  have hm_data : s.eventPool.m_data = textEvents := h.queued.m_data
  have hname := (h.queued.texts data (hfront ▸ List.mem_cons_self ..)).1
  rw [EventPool.getEventIfExists, hm_data, hname] at hqueue
  rw [hpoll, hqueue]
  cases hlookup : textEvents.lookup (eventNameOf data.eventData) with
  | none => exact Or.inl ⟨hlookup, rfl⟩
  | some eventFunction =>
    refine Or.inr ⟨?_, rfl⟩
    intro hnone
    rw [Unregistered, entryOf, hlookup] at hnone
    cases hnone

/-! ### Over a run -/

theorem delivers_start : Delivers [] {} := ⟨Channel.empty, rfl, rfl, Channel.seen_empty⟩

/-- Texts that arrive one after the other. -/
theorem delivers_sent {sent : List (ℕ × Bytes)} {s s' : Process} (h : Delivers sent s)
    {entries : List (ℕ × Bytes)} (hwaiting : s'.waiting = s.waiting ++ entries)
    (hhandled : s'.handledTexts = s.handledTexts) : Delivers (sent ++ entries) s' := by
  obtain ⟨c, hsent, hpending, hseen⟩ := h
  rw [← hhandled] at hseen
  rw [← hpending] at hwaiting
  clear hpending
  induction entries generalizing c sent with
  | nil =>
    rw [List.append_nil] at hwaiting ⊢
    exact ⟨c, hsent, hwaiting.symm, hseen⟩
  | cons entry entries ih =>
    have hpending : s'.waiting = (c.send entry).pending ++ entries := by
      rw [hwaiting, Channel.send, List.append_assoc]
      rfl
    have hrest : Delivers ((sent ++ [entry]) ++ entries) s' :=
      ih (c.send entry) hpending (congrArg (· ++ [entry]) hsent) (hseen.send entry)
    rwa [List.append_assoc] at hrest

theorem delivers_step {sent : List (ℕ × Bytes)} {s s' : Process} {action : ProcessAction}
    (hsound : s.Sound) (h : Delivers sent s) (hstep : s.step action = .ok s') :
    Delivers (sent ++ s.arrivals action) s' := by
  cases action with
  | instances action =>
    rcases step_instances_cases hstep with ⟨event, rfl, rfl⟩ | ⟨haction, rfl⟩
    · obtain ⟨hwaiting, hhandled⟩ := s.waiting_onEvent event
      exact delivers_sent h hwaiting hhandled
    · have harrivals : s.arrivals (.instances action) = [] := by
        cases action with
        | event event => exact absurd rfl (haction event)
        | _ => rfl
      rw [harrivals, List.append_nil]
      exact h
  | servicePoll globals =>
    have harrivals : s.arrivals (.servicePoll globals) = [] := rfl
    rw [harrivals, List.append_nil]
    obtain ⟨c, hsent, hpending, hseen⟩ := h
    rcases (servicePoll_iteration hsound hstep).passes with
      ⟨-, hsame⟩ | ⟨data, rest, hfront, hhandled, hwaiting⟩
    · exact ⟨c, hsent, hsame ▸ hpending, hsame ▸ hseen⟩
    · have hcons : c.pending = entryOf data :: rest.map entryOf := by
        rw [hpending, waiting, hfront]
        rfl
      rw [Delivers, hhandled, hwaiting]
      rcases waiting_servicePoll hsound hfront with ⟨hstuck, hqueue⟩ | ⟨hfree, hqueue⟩
      · exact ⟨c, hsent, by rw [hqueue, hcons]; rfl, hseen.again (by rw [hcons]; rfl) hstuck⟩
      · refine ⟨c.deliver, hsent, ?_, hseen.deliver hcons hfree⟩
        show c.pending.drop 1 = _
        rw [hcons, hqueue]
        rfl

theorem delivers_run {actions : List ProcessAction} {s : Process}
    (hrun : exec (untilFailure step) (.ok {}) actions = .ok s) :
    Delivers (outputs step arrivals {} actions) s := by
  have hstart : Sound {} ∧ Delivers [] {} := ⟨sound_start, delivers_start⟩
  have hrest := exec_outputs (J := fun sent s => Sound s ∧ Delivers sent s) hstart
    (fun sent s action s' h hstep =>
      ⟨sound_step h.1 hstep, delivers_step h.1 h.2 hstep⟩) hrun
  rw [List.nil_append] at hrest
  exact hrest.2

/-- In every run of the process, what is left in the queue is what the network thread has
taken out of packets less what the worker has passed; the worker has handled each text it
passed once, in the order of arrival, and then only the first text without a handler, over
and over. So where every text has a handler, none is handled twice or out of order. -/
theorem texts_delivered {actions : List ProcessAction} {s : Process}
    (hrun : exec (untilFailure step) (.ok {}) actions = .ok s) :
    Delivers (outputs step arrivals {} actions) s ∧
      ((∀ entry ∈ outputs step arrivals {} actions, ¬ Unregistered entry) →
        s.handledTexts <+: outputs step arrivals {} actions) := by
  have hdelivers := delivers_run hrun
  refine ⟨hdelivers, ?_⟩
  intro hregistered
  obtain ⟨c, hsent, -, hseen⟩ := hdelivers
  rw [← hsent] at hregistered ⊢
  exact hseen.prefix_sent hregistered

theorem texts_delivered_stoppedMeanwhile :
    ∃ s, exec (untilFailure step) (.ok {}) stoppedMeanwhile = .ok s ∧
      Delivers (outputs step arrivals {} stoppedMeanwhile) s ∧
      ((∀ entry ∈ outputs step arrivals {} stoppedMeanwhile, ¬ Unregistered entry) →
        s.handledTexts <+: outputs step arrivals {} stoppedMeanwhile) := by
  obtain ⟨s, hrun⟩ := run_stoppedMeanwhile
  exact ⟨s, hrun, texts_delivered hrun⟩

/-! ### Where an account comes from -/

theorem arrived_of_handled {actions : List ProcessAction} {s : Process}
    (hrun : exec (untilFailure step) (.ok {}) actions = .ok s) {address : ℕ} {message : Message}
    (h : message ∈ Tagged.own s.handled address) :
    (address, message.text) ∈ outputs step arrivals {} actions := by
  obtain ⟨c, hsent, -, hseen⟩ := delivers_run hrun
  have hhandled : (address, message.text) ∈ s.handledTexts :=
    List.mem_map.mpr ⟨(address, message), Tagged.mem_own.mp h, rfl⟩
  rw [← hsent]
  exact hseen.mem_sent hhandled

/-- In every run of the process, a player in memory has exactly the account of the first of
its own texts that was granted: a text that the network thread took out of a packet of that
player, and that passed every check, as the database answered when the worker handled it. -/
theorem accounts_granted {actions : List ProcessAction} {s : Process}
    (hrun : exec (untilFailure step) (.ok {}) actions = .ok s) {address : ℕ} {player : Player}
    (hplayer : s.players address = some player) (account : Bytes × Bytes) :
    player.account = some account ↔ ∃ before message rest avatar,
      Tagged.own s.handled address = before ++ message :: rest ∧
        exec (untilFailure Worker.handle) (.ok newcomer) before = .ok avatar ∧
        avatar.player.account = none ∧ Worker.Grants avatar message account ∧
        (address, message.text) ∈ outputs step arrivals {} actions := by
  obtain ⟨after, hafter, rfl⟩ := (sound_run hrun).recorded.run hplayer
  rw [Worker.account_iff hafter]
  constructor
  · intro h
    obtain ⟨before, message, rest, avatar, hown, hbefore, hnone, hgrants⟩ := h
    have hmem : message ∈ s.worker.history address := by
      rw [hown]
      exact List.mem_append_right _ (List.mem_cons_self ..)
    exact ⟨before, message, rest, avatar, hown, hbefore, hnone, hgrants,
      arrived_of_handled hrun hmem⟩
  · intro h
    obtain ⟨before, message, rest, avatar, hown, hbefore, hnone, hgrants, -⟩ := h
    exact ⟨before, message, rest, avatar, hown, hbefore, hnone, hgrants⟩

/-- A player registers, and a second server is started before the worker takes its text. -/
def registersBob : List ProcessAction :=
  [.instances (.startInstance true), .instances .getServers, .instances (.event (.connect 1 7)),
    .instances (.event (.receive 1 7 ⟨0, [2, 0, 0, 0] ++ Worker.registration.text ++ [0]⟩)),
    .instances (.startInstance true), .servicePoll Worker.registration.globals]

theorem accounts_granted_registersBob :
    ∃ s player, exec (untilFailure step) (.ok {}) registersBob = .ok s ∧
      s.players 0 = some player ∧ player.account = some (ascii "bob1", ascii "12345678") ∧
      ∃ before message rest avatar,
        Tagged.own s.handled 0 = before ++ message :: rest ∧
          exec (untilFailure Worker.handle) (.ok newcomer) before = .ok avatar ∧
          avatar.player.account = none ∧
          Worker.Grants avatar message (ascii "bob1", ascii "12345678") ∧
          (0, message.text) ∈ outputs step arrivals {} registersBob := by
  have hbob : (exec (untilFailure step) (.ok {}) registersBob).map
      (fun s => (s.players 0).map Player.account) =
        .ok (some (some (ascii "bob1", ascii "12345678"))) := by decide +kernel
  obtain ⟨s, hrun, hs⟩ := map_eq_ok.mp hbob
  obtain ⟨player, hplayer, haccount⟩ := Option.map_eq_some_iff.mp hs
  exact ⟨s, player, hrun, hplayer, haccount, (accounts_granted hrun hplayer _).mp haccount⟩

/-! ### How long a text waits -/

def isPoll : ProcessAction → Bool
  | .servicePoll _ => true
  | .instances _ => false

/-- One step, seen from the texts at the front of the queue that have a handler: an iteration
of the worker takes the first of them, and nothing else touches them. -/
theorem front_step {s s' : Process} {action : ProcessAction} {entry : ℕ × Bytes}
    {front : List (ℕ × Bytes)} (hsound : s.Sound) (hfront : entry :: front <+: s.waiting)
    (hentry : ¬ Unregistered entry) (hstep : s.step action = .ok s') :
    (isPoll action = false ∧ entry :: front <+: s'.waiting ∧
        s'.handledTexts = s.handledTexts) ∨
      (isPoll action = true ∧ front <+: s'.waiting ∧
        s'.handledTexts = s.handledTexts ++ [entry]) := by
  cases action with
  | instances action =>
    refine Or.inl ⟨rfl, ?_⟩
    rcases step_instances_cases hstep with ⟨event, rfl, rfl⟩ | ⟨-, rfl⟩
    · obtain ⟨hwaiting, hhandled⟩ := s.waiting_onEvent event
      rw [hwaiting]
      exact ⟨hfront.trans (List.prefix_append _ _), hhandled⟩
    · exact ⟨hfront, rfl⟩
  | servicePoll globals =>
    refine Or.inr ⟨rfl, ?_⟩
    rcases (servicePoll_iteration hsound hstep).passes with
      ⟨hempty, -⟩ | ⟨data, rest, hqueue, hhandled, hwaiting⟩
    · rw [waiting, hempty] at hfront
      exact absurd (List.prefix_nil.mp hfront) (List.cons_ne_nil _ _)
    · rw [waiting, hqueue, List.map_cons, List.cons_prefix_cons] at hfront
      obtain ⟨rfl, hfront⟩ := hfront
      rcases waiting_servicePoll hsound hqueue with ⟨hstuck, -⟩ | ⟨-, hrest⟩
      · exact absurd hstuck hentry
      · rw [hwaiting, hrest]
        exact ⟨hfront, hhandled⟩

theorem handled_grows {s s' : Process} {action : ProcessAction} (hsound : s.Sound)
    (hstep : s.step action = .ok s') : s.handledTexts <+: s'.handledTexts := by
  cases action with
  | instances action =>
    rcases step_instances_cases hstep with ⟨event, rfl, rfl⟩ | ⟨-, rfl⟩
    · rw [(s.waiting_onEvent event).2]
    · exact List.prefix_refl _
  | servicePoll globals =>
    rcases (servicePoll_iteration hsound hstep).passes with
      ⟨-, hsame⟩ | ⟨data, rest, -, hhandled, -⟩
    · rw [hsame]
    · rw [hhandled]
      exact List.prefix_append _ _

theorem front_run {further : List ProcessAction} {s s' : Process} {front : List (ℕ × Bytes)}
    (hsound : s.Sound) (hfront : front <+: s.waiting)
    (hregistered : ∀ entry ∈ front, ¬ Unregistered entry)
    (hrun : exec (untilFailure step) (.ok s) further = .ok s')
    (hpolls : front.length ≤ further.countP isPoll) :
    s.handledTexts ++ front <+: s'.handledTexts := by
  induction further generalizing s front with
  | nil =>
    obtain rfl : front = [] := List.length_eq_zero_iff.mp (Nat.le_zero.mp hpolls)
    rw [List.append_nil, Except.ok.inj hrun]
  | cons action further ih =>
    obtain ⟨u, hstep, hrest⟩ := exec_cons_eq_ok.mp hrun
    have hnext := sound_step hsound hstep
    cases front with
    | nil =>
      have hgrown := ih hnext (List.nil_prefix) hregistered hrest (Nat.zero_le _)
      rw [List.append_nil] at hgrown ⊢
      exact (handled_grows hsound hstep).trans hgrown
    | cons entry front =>
      obtain ⟨hentry, hlater⟩ := List.forall_mem_cons.mp hregistered
      rw [List.countP_cons] at hpolls
      rcases front_step hsound hfront hentry hstep with
        ⟨hother, hkept, hhandled⟩ | ⟨hpoll, hleft, hhandled⟩
      · rw [← hhandled]
        refine ih hnext hkept hregistered hrest ?_
        simpa [hother] using hpolls
      · have hdone := ih hnext hleft hlater hrest (by simpa [hpoll] using hpolls)
        rwa [hhandled, List.append_assoc] at hdone

/-- A text waits for the texts in front of it and for no others: with as many iterations of
the worker as there are texts up to it, whatever else arrives, connects or is stopped
meanwhile, all of them have been handled, in their order, unless one has no handler. -/
theorem front_handled {actions further : List ProcessAction} {s s' : Process}
    {front : List (ℕ × Bytes)} (hrun : exec (untilFailure step) (.ok {}) actions = .ok s)
    (hfront : front <+: s.waiting) (hregistered : ∀ entry ∈ front, ¬ Unregistered entry)
    (hfurther : exec (untilFailure step) (.ok s) further = .ok s')
    (hpolls : front.length ≤ further.countP isPoll) :
    s.handledTexts ++ front <+: s'.handledTexts :=
  front_run (sound_run hrun) hfront hregistered hfurther hpolls

theorem registered_helloText : ¬ Unregistered (0, packetText System.helloText) := by
  have hsome : (textEvents.lookup (eventNameOf (packetText System.helloText))).isSome := by
    decide +kernel
  intro hnone
  have hnone' : textEvents.lookup (eventNameOf (packetText System.helloText)) = none := hnone
  rw [hnone'] at hsome
  cases hsome

theorem front_handled_stoppedMeanwhile :
    ∃ s s', exec (untilFailure step) (.ok {}) (stoppedMeanwhile.take 4) = .ok s ∧
      [(0, packetText System.helloText)] <+: s.waiting ∧
      (∀ entry ∈ [(0, packetText System.helloText)], ¬ Unregistered entry) ∧
      exec (untilFailure step) (.ok s) (stoppedMeanwhile.drop 4) = .ok s' ∧
      1 ≤ (stoppedMeanwhile.drop 4).countP isPoll ∧
      s.handledTexts ++ [(0, packetText System.helloText)] <+: s'.handledTexts := by
  obtain ⟨s, hrun, hwaiting⟩ : ∃ s,
      exec (untilFailure step) (.ok {}) (stoppedMeanwhile.take 4) = .ok s ∧
        s.waiting = [(0, packetText System.helloText)] := ⟨_, rfl, rfl⟩
  obtain ⟨s', hall⟩ := run_stoppedMeanwhile
  have hfurther : exec (untilFailure step) (.ok s) (stoppedMeanwhile.drop 4) = .ok s' := by
    rw [← hrun]
    exact hall
  have hfront : [(0, packetText System.helloText)] <+: s.waiting := by rw [hwaiting]
  have hregistered : ∀ entry ∈ [(0, packetText System.helloText)], ¬ Unregistered entry := by
    intro entry hentry
    rw [List.mem_singleton.mp hentry]
    exact registered_helloText
  have hpolls : 1 ≤ (stoppedMeanwhile.drop 4).countP isPoll := by decide
  exact ⟨s, s', hrun, hfront, hregistered, hfurther, hpolls,
    front_handled hrun hfront hregistered hfurther hpolls⟩

/-! ### What is sent in return -/

/-- What the worker sends in a step, with the address of the player whose text it answers. -/
def replies (s : Process) : ProcessAction → List (ℕ × Request)
  | .servicePoll globals =>
    match s.eventPool.servicePoll.1 with
    | none => []
    | some dispatch =>
      match s.players dispatch.data.pAvatar.address with
      | none => []
      | some player =>
        match Dispatch.handle globals { player } dispatch with
        | .error _ => []
        | .ok after => after.requests.map (Prod.mk dispatch.data.pAvatar.address)
  | .instances _ => []

theorem replies_idle {s : Process} {globals : Globals} (h : s.eventPool.m_workerQueue = []) :
    s.replies (.servicePoll globals) = [] := by
  rw [replies, s.eventPool.servicePoll_nil h]

theorem replies_ignored {s : Process} {globals : Globals} (h : s.Sound) {data : EventData}
    {rest : List EventData} (hfront : s.eventPool.m_workerQueue = data :: rest)
    (hdeleted : s.players data.pAvatar.address = none) :
    s.replies (.servicePoll globals) = [] := by
  have htext := h.queued.texts data (hfront ▸ List.mem_cons_self ..)
  obtain ⟨dispatch, hpoll, hdata, -⟩ :=
    System.handle_dispatch h.queued.m_data hfront htext globals newcomer
  have hfirst : s.eventPool.servicePoll.1 = some dispatch := hpoll
  simp only [replies, hfirst, hdata, hdeleted]

theorem replies_handled {s : Process} {globals : Globals} (h : s.Sound) {data : EventData}
    {rest : List EventData} {player : Player} {after : Avatar}
    (hfront : s.eventPool.m_workerQueue = data :: rest)
    (halive : s.players data.pAvatar.address = some player)
    (hafter : Worker.handle { player } (System.message globals data) = .ok after) :
    s.replies (.servicePoll globals) = after.requests.map (Prod.mk data.pAvatar.address) := by
  have htext := h.queued.texts data (hfront ▸ List.mem_cons_self ..)
  obtain ⟨dispatch, hpoll, hdata, hhandle⟩ :=
    System.handle_dispatch h.queued.m_data hfront htext globals { player }
  have hsame : Dispatch.handle globals { player } dispatch = .ok after := hhandle.trans hafter
  have hfirst : s.eventPool.servicePoll.1 = some dispatch := hpoll
  simp only [replies, hfirst, hdata, halive, hsame]

/-- Of each player: its own texts have run, what was sent in answer is what they made the worker
send, and as long as it is in memory, it is what they made of it. -/
def Answered (sent : List (ℕ × Request)) (s : Process) : Prop :=
  ∀ address, ∃ avatar,
    exec (untilFailure Worker.handle) (.ok newcomer) (Tagged.own s.handled address) =
        .ok avatar ∧
      Tagged.own sent address = avatar.requests ∧
      ∀ player, s.players address = some player → player = avatar.player

section Replies
variable {s s' : Process} {sent : List (ℕ × Request)}

theorem answered_memory (hrecorded : s.worker.Recorded) (h : Answered sent s)
    (hhandled : s'.handled = s.handled) (heffect : MemoryEffect s s') : Answered sent s' := by
  intro address
  obtain ⟨avatar, hrun, hsent, hplayer⟩ := h address
  refine ⟨avatar, hhandled ▸ hrun, hsent, ?_⟩
  cases heffect with
  | kept hnext hfreed hplayers =>
    rw [hplayers]
    exact hplayer
  | created hnext hfreed hplayers =>
    intro player hnew
    rw [hplayers] at hnew
    by_cases haddress : address = s.instances.next
    · have hempty : Tagged.own s.handled address = [] :=
        Tagged.own_eq_nil fun entry hentry =>
          haddress ▸ Nat.ne_of_lt (hrecorded.past entry hentry)
      rw [hempty] at hrun
      rw [haddress, Function.update_self] at hnew
      rw [← Option.some.inj hnew, ← Except.ok.inj hrun]
    · rw [Function.update_of_ne haddress] at hnew
      exact hplayer player hnew
  | deleted gone hnext hfreed hplayers =>
    intro player hkept
    rw [hplayers] at hkept
    by_cases haddress : address = gone
    · rw [haddress, Function.update_self] at hkept
      cases hkept
    · rw [Function.update_of_ne haddress] at hkept
      exact hplayer player hkept

theorem answered_handled (h : Answered sent s) {address : ℕ} {player : Player} {after : Avatar}
    {message : Message} (halive : s.players address = some player)
    (hafter : Worker.handle { player } message = .ok after)
    (hplayers : s'.players = Function.update s.players address (some after.player))
    (hhandled : s'.handled = s.handled ++ [(address, message)]) :
    Answered (sent ++ after.requests.map (Prod.mk address)) s' := by
  intro other
  obtain ⟨avatar, hrun, hsent, hplayer⟩ := h other
  rw [hhandled, Tagged.own_concat, Tagged.own_append, Tagged.own_map, hplayers]
  by_cases hother : other = address
  · obtain rfl := hplayer player (hother ▸ halive)
    obtain ⟨last, hlast, hlastPlayer, hlastRequests⟩ := System.run_append hrun hafter
    rw [if_pos hother, if_pos hother, hother, Function.update_self, ← hother]
    refine ⟨last, hlast, by rw [hsent, hlastRequests], ?_⟩
    intro current hcurrent
    rw [← Option.some.inj hcurrent, hlastPlayer]
  · rw [if_neg hother, if_neg hother, Function.update_of_ne hother, List.append_nil]
    exact ⟨avatar, hrun, hsent, hplayer⟩

/-- A text of a deleted player that is handled would leave the player as it was. -/
theorem answered_ignored (h : Answered sent s) {data : EventData} {globals : Globals}
    (htext : System.FromText data)
    (hignores : ignoresAvatar data.eventName data.eventParser = .ok true)
    (hplayers : s'.players = s.players)
    (hhandled : s'.handled = s.handled ++ [(data.pAvatar.address, System.message globals data)]) :
    Answered sent s' := by
  rw [htext.1, htext.2] at hignores
  intro other
  obtain ⟨avatar, hrun, hsent, hplayer⟩ := h other
  rw [hhandled, Tagged.own_concat, hplayers]
  by_cases hother : other = data.pAvatar.address
  · have hsame : Worker.handle avatar (System.message globals data) = .ok avatar :=
      handleText_of_ignoresAvatar globals avatar hignores
    refine ⟨avatar, ?_, hsent, hplayer⟩
    rw [if_pos hother, exec, List.foldl_append]
    rw [exec] at hrun
    rw [hrun]
    exact hsame
  · rw [if_neg hother]
    exact ⟨avatar, hrun, hsent, hplayer⟩

theorem answered_step {action : ProcessAction} (hsound : s.Sound) (h : Answered sent s)
    (hstep : s.step action = .ok s') : Answered (sent ++ s.replies action) s' := by
  cases action with
  | instances action =>
    rw [replies, List.append_nil]
    rcases step_instances_cases hstep with ⟨event, rfl, rfl⟩ | ⟨-, rfl⟩
    · have hhandled : (s.onEvent event).handled = s.handled := by
        unfold onEvent
        split
        · rfl
        · rfl
      exact answered_memory hsound.recorded h hhandled (s.onEvent_memory event)
    · exact h
  | servicePoll globals =>
    cases servicePoll_iteration hsound hstep with
    | idle hempty hsame =>
      rw [replies_idle hempty, List.append_nil, hsame]
      exact h
    | ignored data rest hfront hdeleted hignores hs' =>
      have htext := hsound.queued.texts data (hfront ▸ List.mem_cons_self ..)
      rw [replies_ignored hsound hfront hdeleted, List.append_nil]
      exact answered_ignored h htext hignores (by rw [hs']) (by rw [hs'])
    | handled data rest player after hfront halive hafter hs' =>
      rw [replies_handled hsound hfront halive hafter]
      exact answered_handled h halive hafter (by rw [hs']) (by rw [hs'])

end Replies

theorem answered_start : Answered [] {} := by
  intro address
  refine ⟨newcomer, rfl, rfl, ?_⟩
  intro player hplayer
  cases hplayer

theorem answered_run {actions : List ProcessAction} {s : Process}
    (hrun : exec (untilFailure step) (.ok {}) actions = .ok s) :
    Answered (outputs step replies {} actions) s := by
  have hstart : Sound {} ∧ Answered [] {} := ⟨sound_start, answered_start⟩
  have hrest := exec_outputs (J := fun sent s => Sound s ∧ Answered sent s) hstart
    (fun sent s action s' h hstep =>
      ⟨sound_step h.1 hstep, answered_step h.1 h.2 hstep⟩) hrun
  exact hrest.2

/-- In every run of the process, all that the worker ever sends in answer to the texts of a
player, deleted since or not, is what they alone make it send for a new player, in the order in
which they were handled. -/
theorem replies_own {actions : List ProcessAction} {s : Process}
    (hrun : exec (untilFailure step) (.ok {}) actions = .ok s) (address : ℕ) :
    ∃ avatar,
      exec (untilFailure Worker.handle) (.ok newcomer) (Tagged.own s.handled address) =
          .ok avatar ∧
        Tagged.own (outputs step replies {} actions) address = avatar.requests := by
  obtain ⟨avatar, hexec, hsent, -⟩ := answered_run hrun address
  exact ⟨avatar, hexec, hsent⟩

theorem replies_own_stoppedMeanwhile :
    ∃ s avatar, exec (untilFailure step) (.ok {}) stoppedMeanwhile = .ok s ∧
      exec (untilFailure Worker.handle) (.ok newcomer) (Tagged.own s.handled 0) =
          .ok avatar ∧
        Tagged.own (outputs step replies {} stoppedMeanwhile) 0 = avatar.requests := by
  obtain ⟨s, hrun⟩ := run_stoppedMeanwhile
  obtain ⟨avatar, hexec, hsent⟩ := replies_own hrun 0
  exact ⟨s, avatar, hrun, hexec, hsent⟩

end Process

end GrowServer
