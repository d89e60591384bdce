import GrowServer.Event.ClientTexts
import GrowServer.Server.Delivery

/-!
# The worker on the texts of one player (Event/EventPool.cpp, EventPool::ServicePoll)

What the worker does with the texts of a player that stand at the front of the queue is what
the handlers do with them, one after the other, as long as a handler is registered for each. So
what holds of the texts of one player holds in any run of the process.
-/

namespace GrowServer
open LittleEndian RunLogic Outcome Fifo

/-- A handler is registered for the text. -/
def Message.Registered (this : Message) : Prop :=
  textEvents.lookup (eventNameOf this.text) ≠ none

namespace Process

/-- An iteration of the worker for each text, with the globals it is handled with. -/
def iterations (messages : List Message) : List ProcessAction :=
  messages.map fun message => .servicePoll message.globals

/-- The process when the worker has handled these texts of a player, and made this of it. -/
def served (s : Process) (address : ℕ) (messages : List Message) (after : Avatar) : Process :=
  { s with
    eventPool := { s.eventPool with
      m_workerQueue := s.eventPool.m_workerQueue.drop messages.length }
    players := Function.update s.players address (some after.player)
    handled := s.handled ++ messages.map (Prod.mk address) }

theorem exec_behind (requests : List Request) (avatar : Avatar) (messages : List Message) :
    exec (untilFailure Worker.handle) (.ok (avatar.behind requests)) messages =
      (exec (untilFailure Worker.handle) (.ok avatar) messages).map (·.behind requests) := by
  induction messages generalizing avatar with
  | nil => rfl
  | cons message messages ih =>
    have hstep := System.handle_behind requests avatar message
    show exec (untilFailure Worker.handle) (Worker.handle (avatar.behind requests) message)
      messages = Except.map _ (exec (untilFailure Worker.handle) (Worker.handle avatar message)
        messages)
    rw [hstep]
    cases Worker.handle avatar message with
    | error fault =>
      show exec (untilFailure Worker.handle) (.error fault) messages = _
      rw [exec_error]
      rfl
    | ok after => exact ih after

/-- What was sent before is no part of how a run goes on. -/
theorem exec_ok_iff_behind (first : Avatar) (messages : List Message) (after : Avatar) :
    exec (untilFailure Worker.handle) (.ok first) messages = .ok after ↔
      ∃ later, exec (untilFailure Worker.handle) (.ok { player := first.player }) messages =
        .ok later ∧ later.behind first.requests = after := by
  have hsame : Avatar.behind { player := first.player } first.requests = first := by
    rw [Avatar.behind, List.append_nil]
  have hbehind := exec_behind first.requests { player := first.player } messages
  rw [hsame] at hbehind
  rw [hbehind, map_eq_ok]

section Serving
variable {s s' : Process} {address : ℕ} {player : Player}

theorem served_step (hsound : s.Sound) (halive : s.players address = some player)
    {message : Message} {rest : List (ℕ × Bytes)}
    (hwaiting : s.waiting = (address, message.text) :: rest) (hregistered : message.Registered) :
    s.step (.servicePoll message.globals) = .ok s' ↔
      ∃ after, Worker.handle { player } message = .ok after ∧
        s' = s.served address [message] after := by
  obtain ⟨data, queue, hfront, hentry, -⟩ := List.map_eq_cons_iff.mp hwaiting
  obtain ⟨rfl, htext⟩ := Prod.mk.inj hentry
  have hmessage : System.message message.globals data = message := by
    rw [System.message, htext]
  have hdata := hsound.queued.texts data (hfront ▸ List.mem_cons_self ..)
  have hsome : s.eventPool.m_data.lookup data.eventName ≠ none := by
    have hm_data : s.eventPool.m_data = textEvents := hsound.queued.m_data
    rw [hm_data, hdata.1, htext]
    exact hregistered
  have hpool : s.eventPool.servicePoll.2 =
      { s.eventPool with m_workerQueue := s.eventPool.m_workerQueue.drop 1 } := by
    obtain ⟨eventFunction, hfunction⟩ := Option.ne_none_iff_exists'.mp hsome
    simp only [EventPool.servicePoll, EventPool.getEventIfExists, hfront, hfunction]
    rfl
  have hworker : s.worker.step (.servicePoll message.globals) = _ :=
    System.step_front hsound.queued.m_data hfront hdata
  have hplayer : s.worker.players data.pAvatar.address = some player := halive
  simp only [step, hworker, hplayer, hmessage]
  cases Worker.handle { player } message with
  | error fault =>
    refine iff_of_false ?_ ?_
    · intro h
      cases h
    · intro h
      obtain ⟨after, hafter, -⟩ := h
      cases hafter
  | ok after =>
    have hserved : s.withWorker
        { s.worker with
          eventPool := s.eventPool.servicePoll.2
          players := Function.update s.players data.pAvatar.address (some after.player)
          handled := s.handled ++ [(data.pAvatar.address, message)] } =
        s.served data.pAvatar.address [message] after := by
      rw [hpool]
      rfl
    constructor
    · intro h
      exact ⟨after, rfl, (Except.ok.inj h).symm.trans hserved⟩
    · intro h
      obtain ⟨other, hother, rfl⟩ := h
      rw [← Except.ok.inj hother]
      exact congrArg Except.ok hserved

theorem served_nil (halive : s.players address = some player) :
    s.served address [] { player } = s := by
  have hplayers : Function.update s.players address (some player) = s.players := by
    rw [← halive, Function.update_eq_self]
  simp only [served, hplayers, List.length_nil, List.drop_zero, List.map_nil, List.append_nil]

theorem served_cons (message : Message) (messages : List Message) (first later : Avatar)
    (requests : List Request) :
    (s.served address [message] first).served address messages later =
      s.served address (message :: messages) (later.behind requests) := by
  simp only [served, Avatar.behind, Function.update_idem, List.drop_drop, List.length_cons,
    List.length_nil, List.append_assoc, List.map_cons, List.map_nil, List.cons_append,
    List.nil_append, Nat.add_comm]

/-- The worker on the texts of a player simulates the handlers on the player, step by step:
it comes to the end of the texts exactly when they do, and with the same player. -/
theorem served_run (hsound : s.Sound) (halive : s.players address = some player)
    {messages : List Message} {rest : List (ℕ × Bytes)}
    (hwaiting : s.waiting = messages.map (fun message => (address, message.text)) ++ rest)
    (hregistered : ∀ message ∈ messages, message.Registered) :
    exec (untilFailure step) (.ok s) (iterations messages) = .ok s' ↔
      ∃ after, exec (untilFailure Worker.handle) (.ok { player }) messages = .ok after ∧
        s' = s.served address messages after := by
  induction messages generalizing s player with
  | nil =>
    constructor
    · intro h
      exact ⟨{ player }, rfl, (Except.ok.inj h).symm.trans (served_nil halive).symm⟩
    · intro h
      obtain ⟨after, hafter, rfl⟩ := h
      rw [← Except.ok.inj hafter, served_nil halive]
      rfl
  | cons message messages ih =>
    obtain ⟨hfirst, hrest⟩ := List.forall_mem_cons.mp hregistered
    have hstep {u : Process} :
        step s (.servicePoll message.globals) = .ok u ↔ ∃ first,
          Worker.handle { player } message = .ok first ∧ u = s.served address [message] first :=
      served_step hsound halive hwaiting hfirst
    have hnext (first : Avatar) (hhandle : Worker.handle { player } message = .ok first) :
        exec (untilFailure step) (.ok (s.served address [message] first))
            (iterations messages) = .ok s' ↔
          ∃ later, exec (untilFailure Worker.handle) (.ok { player := first.player }) messages =
              .ok later ∧
            s' = s.served address (message :: messages) (later.behind first.requests) := by
      have hreached := hstep.mpr ⟨first, hhandle, rfl⟩
      have halive' : (s.served address [message] first).players address = some first.player :=
        Function.update_self ..
      have hleft : (s.served address [message] first).waiting =
          messages.map (fun message => (address, message.text)) ++ rest := by
        show (s.eventPool.m_workerQueue.drop 1).map entryOf = _
        rw [List.map_drop]
        show s.waiting.drop 1 = _
        rw [hwaiting]
        rfl
      rw [ih (sound_step hsound hreached) halive' hleft hrest]
      simp only [served_cons (s := s) message messages first _ first.requests]
    constructor
    · intro h
      obtain ⟨u, hu, h⟩ := exec_cons_eq_ok.mp h
      obtain ⟨first, hhandle, rfl⟩ := hstep.mp hu
      obtain ⟨later, hlater, hs'⟩ := (hnext first hhandle).mp h
      have hafter := (exec_ok_iff_behind first messages _).mpr ⟨later, hlater, rfl⟩
      exact ⟨_, exec_cons_eq_ok.mpr ⟨first, hhandle, hafter⟩, hs'⟩
    · intro h
      obtain ⟨after, hafter, hs'⟩ := h
      obtain ⟨first, hhandle, hafter⟩ := exec_cons_eq_ok.mp hafter
      obtain ⟨later, hlater, rfl⟩ := (exec_ok_iff_behind first messages after).mp hafter
      exact exec_cons_eq_ok.mpr ⟨_, hstep.mpr ⟨first, hhandle, rfl⟩,
        (hnext first hhandle).mpr ⟨later, hlater, hs'⟩⟩

theorem waiting_served {messages : List Message} {rest : List (ℕ × Bytes)} (after : Avatar)
    (hwaiting : s.waiting = messages.map (fun message => (address, message.text)) ++ rest) :
    (s.served address messages after).waiting = rest := by
  show (s.eventPool.m_workerQueue.drop messages.length).map entryOf = rest
  rw [List.map_drop]
  show s.waiting.drop messages.length = rest
  rw [hwaiting, List.drop_left' (List.length_map _)]

/-- The worker handles the texts in its next iterations, and takes them out of the queue. -/
def Handles (s : Process) (address : ℕ) (messages : List Message) (rest : List (ℕ × Bytes)) :
    Prop :=
  ∃ s', exec (untilFailure step) (.ok s) (iterations messages) = .ok s' ∧
    s'.handled = s.handled ++ messages.map (Prod.mk address) ∧ s'.waiting = rest

theorem handles_iff (hsound : s.Sound) (halive : s.players address = some player)
    {messages : List Message} {rest : List (ℕ × Bytes)}
    (hwaiting : s.waiting = messages.map (fun message => (address, message.text)) ++ rest)
    (hregistered : ∀ message ∈ messages, message.Registered) :
    s.Handles address messages rest ↔
      ∃ after, exec (untilFailure Worker.handle) (.ok { player }) messages = .ok after := by
  have hrun {u : Process} :
      exec (untilFailure step) (.ok s) (iterations messages) = .ok u ↔ ∃ after,
        exec (untilFailure Worker.handle) (.ok { player }) messages = .ok after ∧
          u = s.served address messages after :=
    served_run hsound halive hwaiting hregistered
  constructor
  · intro h
    obtain ⟨s', hs', -⟩ := h
    obtain ⟨after, hafter, -⟩ := hrun.mp hs'
    exact ⟨after, hafter⟩
  · intro h
    obtain ⟨after, hafter⟩ := h
    exact ⟨_, hrun.mpr ⟨after, hafter, rfl⟩, rfl, waiting_served after hwaiting⟩

end Serving

/-- In every state that the process reaches, the worker handles the texts of a player that
stand at the front exactly when each of them is served in its turn: it is ended by a lookup
that passes a line without a field, or by a game version that does not convert, and by nothing
else. -/
theorem texts_handled_iff {actions : List ProcessAction} {s : Process}
    (hrun : exec (untilFailure step) (.ok {}) actions = .ok s) {address : ℕ} {player : Player}
    (hplayer : s.players address = some player) {messages : List Message}
    {rest : List (ℕ × Bytes)}
    (hwaiting : s.waiting = messages.map (fun message => (address, message.text)) ++ rest)
    (hregistered : ∀ message ∈ messages, message.Registered) :
    s.Handles address messages rest ↔
      Along (untilFailure Worker.handle)
        (OnState fun avatar message => Served message.globals avatar.player message.text)
        (.ok { player }) messages := by
  have hsound := sound_run hrun
  rw [handles_iff hsound hplayer hwaiting hregistered]
  exact Worker.handles_all_iff messages (System.holdsStarters_of_recorded hsound.recorded hplayer)

/-- A player logs in and registers, and has both texts in the queue. -/
def loginQueued : List ProcessAction :=
  [.instances (.startInstance true), .instances .getServers, .instances (.event (.connect 1 7)),
    .instances (.event (.receive 1 7 ⟨0, [2, 0, 0, 0] ++ Worker.login.text ++ [0]⟩)),
    .instances (.event (.receive 1 7 ⟨0, [2, 0, 0, 0] ++ Worker.registration.text ++ [0]⟩))]

/-- A run that is evaluated as far as the player in memory and the queue. -/
theorem exists_queued {actions : List ProcessAction} {address : ℕ} {waiting : List (ℕ × Bytes)}
    (h : (exec (untilFailure step) (.ok {}) actions).map
      (fun s => ((s.players address).isSome, s.waiting)) = .ok (true, waiting)) :
    ∃ s player, exec (untilFailure step) (.ok {}) actions = .ok s ∧
      s.players address = some player ∧ s.waiting = waiting := by
  obtain ⟨s, hrun, hs⟩ := map_eq_ok.mp h
  obtain ⟨hsome, hwaiting⟩ := Prod.mk.inj hs
  obtain ⟨player, hplayer⟩ := Option.isSome_iff_exists.mp hsome
  exact ⟨s, player, hrun, hplayer, hwaiting⟩

theorem registered_of_isSome {message : Message}
    (h : (textEvents.lookup (eventNameOf message.text)).isSome) : message.Registered :=
  Option.isSome_iff_ne_none.mp h

theorem registered_loginQueued :
    ∀ message ∈ [Worker.login, Worker.registration], message.Registered := by
  intro message hmessage
  rcases List.mem_pair.mp hmessage with rfl | rfl
  · exact registered_of_isSome (by decide +kernel)
  · exact registered_of_isSome (by decide +kernel)

theorem texts_handled_iff_loginQueued :
    ∃ s player, exec (untilFailure step) (.ok {}) loginQueued = .ok s ∧
      s.players 0 = some player ∧
      s.waiting = [Worker.login, Worker.registration].map (fun message => (0, message.text)) ++
        [] ∧
      (∀ message ∈ [Worker.login, Worker.registration], message.Registered) ∧
      (s.Handles 0 [Worker.login, Worker.registration] [] ↔
        Along (untilFailure Worker.handle)
          (OnState fun avatar message => Served message.globals avatar.player message.text)
          (.ok { player }) [Worker.login, Worker.registration]) := by
  have hqueued : (exec (untilFailure step) (.ok {}) loginQueued).map
      (fun s => ((s.players 0).isSome, s.waiting)) =
        .ok (true, [(0, Worker.login.text), (0, Worker.registration.text)]) := by decide +kernel
  obtain ⟨s, player, hrun, hplayer, hwaiting⟩ := exists_queued hqueued
  exact ⟨s, player, hrun, hplayer, hwaiting, registered_loginQueued,
    texts_handled_iff hrun hplayer hwaiting registered_loginQueued⟩

section Traffic
variable {actions : List ProcessAction} {s : Process}

theorem own_handledTexts (s : Process) (address : ℕ) :
    Tagged.own s.handledTexts address = (Tagged.own s.handled address).map Message.text := by
  simp only [Tagged.own, handledTexts, List.filter_map, List.map_map]
  rfl

/-- Where all texts of a player have handlers, those that were handled are the first of those
that arrived, whatever becomes of the texts of the others. -/
theorem own_handled_prefix (hrun : exec (untilFailure step) (.ok {}) actions = .ok s)
    {address : ℕ} (hregistered : ∀ text ∈ Tagged.own (outputs step arrivals {} actions) address,
      textEvents.lookup (eventNameOf text) ≠ none) :
    (Tagged.own s.handled address).map Message.text <+:
      Tagged.own (outputs step arrivals {} actions) address := by
  obtain ⟨c, hsent, -, hseen⟩ := delivers_run hrun
  rw [← own_handledTexts, ← hsent]
  rw [← hsent] at hregistered
  refine (hseen.filter_prefix ?_).map Prod.snd
  intro entry hentry hown
  have haddress : entry.1 = address := of_decide_eq_true hown
  exact hregistered entry.2 (Tagged.mem_own.mpr (haddress ▸ hentry))

theorem received_of_handled (hrun : exec (untilFailure step) (.ok {}) actions = .ok s)
    {address : ℕ} {message : Message} (h : message ∈ Tagged.own s.handled address) :
    message.Received := by
  obtain ⟨t, action, harrived⟩ := exists_of_mem_outputs (arrived_of_handled hrun h)
  cases action with
  | servicePoll globals => cases harrived
  | instances action =>
    cases action with
    | event event =>
      obtain ⟨polled, -, harrived⟩ := List.mem_flatMap.mp harrived
      obtain ⟨entry, hentry, hsame⟩ := List.mem_map.mp harrived
      obtain ⟨-, htext⟩ := Prod.mk.inj hsame
      cases event with
      | receive peer connectID packet =>
        rw [System.textsIn] at hentry
        split at hentry
        · rename_i haccepted
          obtain ⟨player, -, rfl⟩ := List.mem_map.mp hentry
          exact ⟨packet, haccepted.1, htext.symm⟩
        · cases hentry
      | _ => cases hentry
    | _ => cases harrived

/-- In every run of the process, what the worker sends in answer to the texts of a player is
linear in what arrived from it, as long as it sends no text without a handler: at most four
packets for each text, and at most 832 bytes and three times the text. -/
theorem traffic_bounded (hrun : exec (untilFailure step) (.ok {}) actions = .ok s)
    (peers : PeerArgument → ENetPeer) {address : ℕ}
    (hregistered : ∀ text ∈ Tagged.own (outputs step arrivals {} actions) address,
      textEvents.lookup (eventNameOf text) ≠ none) :
    (Tagged.own (outputs step replies {} actions) address).length ≤
        4 * (Tagged.own (outputs step arrivals {} actions) address).length ∧
      ((Tagged.own (outputs step replies {} actions) address).map
          (Request.sentLength peers)).sum ≤
        ((Tagged.own (outputs step arrivals {} actions) address).map
          fun text => 832 + 3 * text.length).sum := by
  obtain ⟨avatar, hexec, hsent, -⟩ := answered_run hrun address
  obtain ⟨later, harrived⟩ := own_handled_prefix hrun hregistered
  obtain ⟨hcount, hsize⟩ := @Worker.replies_bounded newcomer.player _ _ peers
    (fun message hmessage => received_of_handled hrun hmessage) hexec
  have hbudget : ((Tagged.own s.handled address).map Message.text).map
      (fun text => 832 + 3 * text.length) =
        (Tagged.own s.handled address).map fun message => replyBudget message.text := by
    rw [List.map_map]
    rfl
  rw [hsent, ← harrived, List.map_append, List.sum_append, hbudget, List.length_append,
    List.length_map]
  exact ⟨by omega, by omega⟩

end Traffic

theorem traffic_bounded_registersBob :
    ∃ s, exec (untilFailure step) (.ok {}) registersBob = .ok s ∧
      (∀ text ∈ Tagged.own (outputs step arrivals {} registersBob) 0,
        textEvents.lookup (eventNameOf text) ≠ none) ∧
      (Tagged.own (outputs step replies {} registersBob) 0).length ≤
        4 * (Tagged.own (outputs step arrivals {} registersBob) 0).length ∧
      ((Tagged.own (outputs step replies {} registersBob) 0).map
          (Request.sentLength fun _ => 7)).sum ≤
        ((Tagged.own (outputs step arrivals {} registersBob) 0).map
          fun text => 832 + 3 * text.length).sum := by
  have hcompletes : (exec (untilFailure step) (.ok {}) registersBob).map (fun _ => ()) =
      .ok () := by decide +kernel
  obtain ⟨s, hrun, -⟩ := map_eq_ok.mp hcompletes
  have hown : Tagged.own (outputs step arrivals {} registersBob) 0 =
      [Worker.registration.text] := by decide +kernel
  have hregistered : ∀ text ∈ Tagged.own (outputs step arrivals {} registersBob) 0,
      textEvents.lookup (eventNameOf text) ≠ none := by
    intro text htext
    rw [hown] at htext
    rw [List.mem_singleton.mp htext]
    exact Option.isSome_iff_ne_none.mp (by decide +kernel)
  exact ⟨s, hrun, hregistered, traffic_bounded hrun (fun _ => 7) hregistered⟩

end Process

end GrowServer
