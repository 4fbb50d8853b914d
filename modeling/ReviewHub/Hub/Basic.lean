import ReviewHub.Hub.Config
import ReviewHub.Listen.Dispatch
import ReviewHub.Stream
import ReviewHub.Work.Queue
/-!
# The hub

The hub owns the queue, the switchboard and the workers. Workers take envelopes off the queue one at
a time, turn them into events and dispatch these. A worker has two parts: a task, which waits for
work and is looked at only when something has woken it, and the job of the envelope that it holds,
which runs beside the tasks and may be stuck in a listener at a gate.

This module has the state, how a hub is built, and what can be read off it.
-/

namespace ReviewHub

inductive Phase where
  /-- It has not been looked at since it was started. -/
  | fresh
  /-- It waits for work. -/
  | pulling (t : Ticket)
  /-- It has an envelope that it has not opened. -/
  | holding (work : Envelope)
  /-- The event of its envelope is being dispatched. -/
  | dispatching (work : Envelope) (dispatch : Dispatch)
  /-- The job of its envelope has ended, and it has not been looked at since. -/
  | finished (job : Completion)
  /-- It has ended. -/
  | stopped
  /-- It was ended from outside. -/
  | cutOff

namespace Phase

def isOver : Phase → Bool
  | stopped => true
  | cutOff => true
  | _ => false

/-- The envelope that the worker has and is not done with. -/
def held? : Phase → Option Envelope
  | holding w => some w
  | dispatching w _ => some w
  | _ => none

/-- The worker is inside a listener that waits at a gate. -/
def isAtGate : Phase → Bool
  | dispatching _ d => d.isWaiting
  | _ => false

end Phase

structure Worker where
  name : String
  phase : Phase := .fresh
  /-- Something has happened since it was last looked at. -/
  awake : Bool := true

inductive Life where
  | running
  | shutDown
deriving DecidableEq, Repr

def Life.name : Life → String
  | running => "Running"
  | shutDown => "ShutDown"

/-- A shutdown that waits for workers: those it still waits for, and the first failure so far. -/
structure Joining where
  remaining : List Nat
  failure : Option Error

/-- Who takes envelopes and dispatches events: a worker, by its number, or somebody outside who uses
the hub's queue and switchboard directly. -/
inductive Source where
  | worker (i : Nat)
  | guest
deriving DecidableEq, Repr

inductive Happening where
  | logged (log : Log)
  /-- An envelope has come onto the queue. -/
  | accepted (work : Envelope)
  /-- An envelope has been taken off the queue. -/
  | taken (source : Source) (work : Envelope)
  /-- Somebody outside has acted on the switchboard. -/
  | acted (action : Action) (reply : Reply)
  /-- The dispatch of an event begins. -/
  | notified (source : Source) (event : Event)
  /-- Something happens during a dispatch. -/
  | dispatched (source : Source) (note : Note)

/-- A hub. What its listeners remember is an `σ`. -/
structure Hub (σ : Type) where
  config : Config
  parser : Parser
  /-- The number of workers that the next hub should have. -/
  workerCount : UInt64
  queue : Queue
  scene : Scene σ
  life : Life := .running
  /-- The signal to stop has been given. -/
  stopping : Bool := false
  /-- There is something for the workers to run on. -/
  alive : Bool := true
  workers : List Worker
  /-- The workers, by number, that have not been handed over to a shutdown. -/
  handles : List Nat
  joining : Option Joining := none
  /-- Dispatches that somebody outside has begun, the oldest first. -/
  guests : List Dispatch := []
  /-- The next ticket. -/
  next : Ticket := 0

/-- What an operation answers, the hub after it and what happened. -/
structure Effect (σ α : Type) where
  answer : α
  hub : Hub σ
  happened : List Happening := []

/-- The effect with its answer seen through `f`. -/
def Effect.answering {σ α β : Type} (e : Effect σ α) (f : α → β) : Effect σ β :=
  { answer := f e.answer, hub := e.hub, happened := e.happened }

namespace Hub

variable {σ : Type}

def workerName (c : Config) (i : Nat) : String := c.workerName ++ "-" ++ toString i

/-- The greatest number of workers that a hub can be built with, `2 ^ 60 - 1`. The handles of all
workers stand in one block of memory, eight bytes each, and a block has fewer than `2 ^ 63` bytes.
That there is as much memory as is asked for within this limit is taken for granted. -/
def maxWorkers : Nat := 0x0FFFFFFFFFFFFFFF

/-- What has come of building a hub up to some moment: whether there is one, the workers that have
been started, and what has been reported. -/
structure Building (σ : Type) where
  outcome : Built (Hub σ)
  started : List Worker := []
  happened : List Happening := []

/-- Builds a hub. The block for the handles is asked for before the first worker is started. -/
def build (hasRuntime : Bool) (c : Config) (parser : Parser) (memory : σ) : Building σ :=
  match c.validate with
  | .error e => { outcome := .refused e }
  | .ok _ =>
    if hasRuntime then
      match Queue.build (c.queueCapacity.map UInt64.toNat) with
      | .refused e => { outcome := .refused e }
      | .panicked => { outcome := .panicked }
      | .ok queue =>
        if maxWorkers < c.workerCount.toNat then { outcome := .panicked }
        else
          let numbers := List.range c.workerCount.toNat
          let workers := numbers.map fun i => { name := workerName c i }
          { outcome := .ok {
              config := c
              parser := parser
              workerCount := c.workerCount
              queue := queue
              scene := ⟨{}, memory⟩
              workers := workers
              handles := numbers }
            started := workers
            happened := [.logged (.started c.workerCount.toNat queue.capacity)] }
    else { outcome := .refused .runtimeUnavailable }

/-! ### Reading -/

/-- The number of workers that the hub owns. -/
def runningWorkers (h : Hub σ) : Nat := h.handles.length

/-- The number of envelopes that no worker has taken yet. -/
def pendingWork (h : Hub σ) : Nat := h.queue.size

def isRunning (h : Hub σ) : Bool := h.life == .running

def listeners (h : Hub σ) : List Listener := h.scene.board.roster.listeners

def listenerCount (h : Hub σ) : Nat := h.scene.board.roster.size

def ignoredEmail? (h : Hub σ) (provider : String) : Option String :=
  h.scene.board.ignored.email? provider

def describe (h : Hub σ) : String :=
  "GerritHandler \x7b state: " ++ h.life.name ++
    ", worker_count: " ++ toString h.workerCount ++
    ", listeners: " ++ toString h.listenerCount ++
    ", queue: " ++ h.queue.describe ++ " \x7d"

/-! ### Changing a part -/

/-- Wakes the workers with the property. -/
def wake (h : Hub σ) (p : Worker → Bool) : Hub σ :=
  { h with workers := h.workers.map fun w => if p w then { w with awake := true } else w }

/-- The worker waits under the ticket. -/
def isPulling (t : Ticket) (w : Worker) : Bool :=
  match w.phase with
  | .pulling u => u == t
  | _ => false

/-- The hub with another queue; the worker that has its turn by the change is woken. -/
def withQueue (h : Hub σ) (q : Queue) : Hub σ :=
  let changed := { h with queue := q }
  match Queue.signalled? h.queue q with
  | some t => changed.wake (isPulling t)
  | none => changed

def withPhase (h : Hub σ) (i : Nat) (phase : Phase) (awake : Bool) : Hub σ :=
  { h with workers := h.workers.modify i fun w => { w with phase := phase, awake := awake } }

def withStop (h : Hub σ) : Hub σ := { h with stopping := true }.wake fun _ => true

end Hub

end ReviewHub
