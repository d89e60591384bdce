import GrowServer.Lib.Run
import Mathlib.Data.Nat.Notation

/-!
# The service thread (Server/ServerPool.cpp, ServerPool::Start, Stop and ServicePoll)

`Start` creates the poll thread, stores its handle and sets the flag the thread tests,
in this order; `Stop` clears the flag and joins no thread. Their steps interleave with
those of the threads, of which one round of the loop is a single step here.
-/

namespace GrowServer
open RunLogic

/-- Where a thread stands in `ServicePoll`. -/
inductive PollThread where
  | testing
  | polling
  | left
  | exited
  deriving DecidableEq, Repr

namespace PollThread

def inLoop (this : PollThread) : Bool := this = testing ∨ this = polling

def testFlag (running : Bool) : PollThread → PollThread
  | testing => if running then polling else left
  | this => this

def poll : PollThread → PollThread
  | polling => testing
  | this => this

def exit : PollThread → PollThread
  | left => exited
  | this => this

instance (P : PollThread → Prop) [DecidablePred P] : Decidable (∀ thread, P thread) :=
  decidable_of_iff (∀ thread ∈ [testing, polling, left, exited], P thread)
    ⟨fun h thread => h thread (by cases thread <;> decide), fun h thread _ => h thread⟩

end PollThread

/-- Where the caller of `Start` stands. -/
inductive StartCall where
  | none
  | created (thread : ℕ)
  | stored
  deriving DecidableEq, Repr

inductive ServiceStep where
  | createThread
  | storeHandle
  | setRunning
  | clearRunning
  | testFlag (thread : ℕ)
  | poll (thread : ℕ)
  | exit (thread : ℕ)
  deriving DecidableEq, Repr

/-- The flag and the handle of the pool, with every thread created so far. `started`
records that a `Start` has returned and no `Stop` was called since. -/
structure ServiceThread where
  running : Bool := false
  m_serviceThread : Option ℕ := none
  threads : List PollThread := []
  call : StartCall := .none
  started : Bool := false
  terminated : Bool := false
  deriving DecidableEq, Repr

namespace ServiceThread

-- a thread that has exited is joinable still, and nothing joins or detaches it
def joinable (this : ServiceThread) : Bool := this.m_serviceThread.isSome

def createThread (this : ServiceThread) : ServiceThread :=
  match this.call with
  | .none =>
    { this with threads := this.threads ++ [.testing], call := .created this.threads.length }
  | _ => this

-- assigning over a joinable `std::thread` is `std::terminate`
def storeHandle (this : ServiceThread) : ServiceThread :=
  match this.call with
  | .created thread =>
    if this.joinable then { this with terminated := true }
    else { this with m_serviceThread := some thread, call := .stored }
  | _ => this

def setRunning (this : ServiceThread) : ServiceThread :=
  match this.call with
  | .stored => { this with running := true, call := .none, started := true }
  | _ => this

def clearRunning (this : ServiceThread) : ServiceThread :=
  match this.call with
  | .none => { this with running := false, started := false }
  | _ => this

def onThread (this : ServiceThread) (thread : ℕ) (f : PollThread → PollThread) : ServiceThread :=
  { this with threads := this.threads.modify thread f }

/-- One step of the caller or of a thread; a step that is not the next one of its party
leaves the state as it is. -/
def take (this : ServiceThread) : ServiceStep → ServiceThread
  | .createThread => this.createThread
  | .storeHandle => this.storeHandle
  | .setRunning => this.setRunning
  | .clearRunning => this.clearRunning
  | .testFlag thread => this.onThread thread (PollThread.testFlag this.running)
  | .poll thread => this.onThread thread PollThread.poll
  | .exit thread => this.onThread thread PollThread.exit

def step (this : ServiceThread) (a : ServiceStep) : ServiceThread :=
  if this.terminated then this else this.take a

def pollers (this : ServiceThread) : ℕ := this.threads.countP PollThread.inLoop

/-- No call has ended the program, and a started pool has one thread in its loop. -/
structure Polled (this : ServiceThread) : Prop where
  alive : this.terminated = false
  one : this.started → this.pollers = 1

def StaysPolled (this : ServiceThread) (a : ServiceStep) : Prop := (this.step a).Polled

/-- `Start` is not called while the pool is started, stores the handle of its thread
over none, and sets the flag before the thread tests it. -/
def StartsFirst (this : ServiceThread) : ServiceStep → Prop
  | .createThread => this.call = .none → ¬ this.started
  | .storeHandle => ∀ thread, this.call = .created thread → ¬ this.joinable
  | .setRunning => this.call = .stored → ∀ thread, this.m_serviceThread = some thread →
      this.threads[thread]? = some .testing
  | _ => True

/-! ### The life of the pool -/

/-- From the first `Start` to the first that follows a `Stop`. -/
inductive Phase : ServiceThread → Prop
  | unstarted : Phase {}
  | creating {thread : PollThread} (h : thread ≠ .polling) :
      Phase { threads := [thread], call := .created 0 }
  | storing {thread : PollThread} (h : thread ≠ .polling) :
      Phase { m_serviceThread := some 0, threads := [thread], call := .stored }
  | serving {thread : PollThread} (h : thread.inLoop) :
      Phase { running := true, m_serviceThread := some 0, threads := [thread], started := true }
  | stopped (thread : PollThread) : Phase { m_serviceThread := some 0, threads := [thread] }
  | restarting (threads : List PollThread) (thread : ℕ) :
      Phase { m_serviceThread := some 0, threads, call := .created thread }

variable {s : ServiceThread}

theorem Phase.polled (h : Phase s) : s.Polled := by
  cases h with
  | serving hloop =>
    refine ⟨rfl, fun _ => ?_⟩
    simp only [pollers, List.countP_singleton, if_pos hloop]
  | _ => exact ⟨rfl, fun hstarted => absurd hstarted Bool.false_ne_true⟩

theorem modify_singleton {α : Type} (x : α) (n : ℕ) (f : α → α) :
    [x].modify n f = [if n = 0 then f x else x] := by
  cases n with
  | zero => rfl
  | succ n => rw [List.modify_succ_cons, List.modify_nil, if_neg n.succ_ne_zero]

/-- A step of a thread starts no round while the flag is clear, and leaves the loop
only then. -/
structure KeepsLoop (running : Bool) (f : PollThread → PollThread) : Prop where
  starts_none : running = false → ∀ thread, thread ≠ .polling → f thread ≠ .polling
  leaves_none : running = true → ∀ thread, thread.inLoop → (f thread).inLoop

theorem keepsLoop_testFlag (running : Bool) : KeepsLoop running (PollThread.testFlag running) where
  starts_none := by
    revert running
    decide
  leaves_none := by
    revert running
    decide

theorem keepsLoop_poll (running : Bool) : KeepsLoop running PollThread.poll where
  starts_none := fun _ => by decide
  leaves_none := fun _ => by decide

theorem keepsLoop_exit (running : Bool) : KeepsLoop running PollThread.exit where
  starts_none := fun _ => by decide
  leaves_none := fun _ => by decide

theorem Phase.onThread (h : Phase s) (n : ℕ) {f : PollThread → PollThread}
    (hf : KeepsLoop s.running f) : Phase (s.onThread n f) := by
  unfold ServiceThread.onThread
  cases h with
  | unstarted =>
    rw [List.modify_nil]
    exact unstarted
  | creating hthread =>
    rw [modify_singleton]
    split
    · exact creating (hf.starts_none rfl _ hthread)
    · exact creating hthread
  | storing hthread =>
    rw [modify_singleton]
    split
    · exact storing (hf.starts_none rfl _ hthread)
    · exact storing hthread
  | serving hthread =>
    rw [modify_singleton]
    split
    · exact serving (hf.leaves_none rfl _ hthread)
    · exact serving hthread
  | stopped thread =>
    rw [modify_singleton]
    exact stopped _
  | restarting threads thread => exact restarting _ thread

theorem Phase.createThread (h : Phase s) (hc : s.StartsFirst .createThread) :
    Phase s.createThread := by
  cases h with
  | unstarted => exact creating (by decide)
  | creating hthread => exact creating hthread
  | storing hthread => exact storing hthread
  | serving hthread => exact absurd rfl (hc rfl)
  | stopped thread => exact restarting _ _
  | restarting threads thread => exact restarting threads thread

theorem Phase.storeHandle (h : Phase s) (hc : s.StartsFirst .storeHandle) :
    Phase s.storeHandle := by
  cases h with
  | unstarted => exact unstarted
  | creating hthread => exact storing hthread
  | storing hthread => exact storing hthread
  | serving hthread => exact serving hthread
  | stopped thread => exact stopped thread
  | restarting threads thread => exact absurd rfl (hc thread rfl)

theorem Phase.setRunning (h : Phase s) (hc : s.StartsFirst .setRunning) : Phase s.setRunning := by
  cases h with
  | unstarted => exact unstarted
  | creating hthread => exact creating hthread
  | storing hthread =>
    obtain rfl := Option.some.inj (hc rfl 0 rfl)
    exact serving rfl
  | serving hthread => exact serving hthread
  | stopped thread => exact stopped thread
  | restarting threads thread => exact restarting threads thread

theorem Phase.clearRunning (h : Phase s) : Phase s.clearRunning := by
  cases h with
  | unstarted => exact unstarted
  | creating hthread => exact creating hthread
  | storing hthread => exact storing hthread
  | serving hthread => exact stopped _
  | stopped thread => exact stopped thread
  | restarting threads thread => exact restarting threads thread

theorem Phase.step (h : Phase s) {a : ServiceStep} (hc : s.StartsFirst a) : Phase (s.step a) := by
  unfold ServiceThread.step
  rw [if_neg (by rw [h.polled.alive]; decide)]
  cases a with
  | createThread => exact h.createThread hc
  | storeHandle => exact h.storeHandle hc
  | setRunning => exact h.setRunning hc
  | clearRunning => exact h.clearRunning
  | testFlag thread => exact h.onThread thread (keepsLoop_testFlag s.running)
  | poll thread => exact h.onThread thread (keepsLoop_poll s.running)
  | exit thread => exact h.onThread thread (keepsLoop_exit s.running)

/-- Where a step of the caller goes wrong, a second thread polls, the program ends, or
the thread has left its loop already. -/
theorem Phase.startsFirst (h : Phase s) {a : ServiceStep} (hpolled : s.StaysPolled a) :
    s.StartsFirst a := by
  unfold StaysPolled ServiceThread.step at hpolled
  rw [if_neg (by rw [h.polled.alive]; decide)] at hpolled
  cases a with
  | createThread =>
    intro hcall hstarted
    cases h with
    | @serving thread hthread =>
      have hone : [thread, .testing].countP PollThread.inLoop = 1 := hpolled.one rfl
      rw [List.countP_cons_of_pos hthread] at hone
      cases hone
    | _ => cases hstarted
  | storeHandle =>
    intro thread hcall hjoinable
    cases h with
    | restarting threads thread =>
      exact Bool.noConfusion hpolled.alive
    | creating => cases hjoinable
    | _ => cases hcall
  | setRunning =>
    intro hcall thread hthread
    cases h with
    | @storing created hne =>
      have hone : [created].countP PollThread.inLoop = 1 := hpolled.one rfl
      obtain rfl := Option.some.inj hthread
      cases created with
      | testing => rfl
      | polling => exact absurd rfl hne
      | left | exited => cases hone
    | _ => cases hcall
  | _ => trivial

theorem along_staysPolled_iff (as : List ServiceStep) :
    Along step StaysPolled {} as ↔ Along step StartsFirst {} as := by
  apply along_iff Phase.unstarted (E := fun _ _ => True)
  · intro s a hs _ hc
    exact hs.step hc
  · intro s a hs _
    exact ⟨hs.startsFirst, fun hc => (hs.step hc).polled⟩
  · exact along_true _ _

theorem not_along_staysPolled :
    ¬ Along step StaysPolled {} [.createThread, .storeHandle, .testFlag 0, .setRunning] := by
  intro h
  have hone := h.2.2.2.1.one rfl
  revert hone
  decide

end ServiceThread

end GrowServer
