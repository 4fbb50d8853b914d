import ReviewHub.Hub.Access
import ReviewHub.Hub.Lifecycle
import ReviewHub.Hub.Submission
/-!
# Steps of a hub

What happens to a hub, one step at a time. Any sequence of steps is a possible course of events:
producers, workers and whoever holds the hub take turns in any order. `settle` takes the steps that
the hub takes by itself until there is none left.

Some uses of a hub are no steps. Whoever has its queue may push to it and pull from it without the
hub; of these there is only `tryPull`, and a pull that waits is a deed, in the next module. Of
several dispatches from outside only the oldest goes on, and one that waits at a gate stays there.
The job of an envelope begins at the latest when its worker is advanced: that it waits for a thread
for good, or that the runtime goes away before it has one, is left out.
-/

namespace ReviewHub.Hub

variable {σ : Type}

inductive Step where
  | submit (work : Envelope)
  | pollSubmission (t : Ticket)
  | dropSubmission (t : Ticket)
  | pollWorker (i : Nat)
  | advanceJob (i : Nat)
  | passGate (i : Nat)
  | act (action : Action)
  | tryPull
  | notify (event : Event)
  | advanceGuest
  | shutdown (join : Bool)
  | pollShutdown
  | dropShutdown
  | drop
  | killRuntime
  | setWorkerCount (count : UInt64)

inductive Answer where
  | none
  | flag (b : Bool)
  | pushed (p : Pushed)
  | replied (r : Reply)
  | taken (work : Option Envelope)
  | progress (p : Progress)

def step (rep : Repertoire σ) (h : Hub σ) : Step → Effect σ Answer
  | .submit work => (h.submit work).answering .pushed
  | .pollSubmission t =>
    (h.pollSubmission t).answering (fun p? => p?.elim .none .pushed)
  | .dropSubmission t => (h.dropSubmission t).answering .flag
  | .pollWorker i => (h.pollWorker i).answering (fun _ => .none)
  | .advanceJob i => (h.advanceJob rep i).answering (fun _ => .none)
  | .passGate i => (h.passGate i).answering .flag
  | .act a => (h.act a).answering .replied
  | .tryPull => h.tryPull.answering .taken
  | .notify e => (h.notify e).answering (fun _ => .none)
  | .advanceGuest => (h.advanceGuest rep).answering (fun _ => .none)
  | .shutdown join => (h.shutdown join).answering .progress
  | .pollShutdown => h.pollShutdown.answering (fun p? => p?.elim .none .progress)
  | .dropShutdown => { answer := .none, hub := h.dropShutdown }
  | .drop => { answer := .none, hub := h.drop }
  | .killRuntime => { answer := .none, hub := h.killRuntime }
  | .setWorkerCount n => (h.setWorkerCount n).answering (fun _ => .none)

/-- The hub after a sequence of steps, and all that happened, in order. -/
def run (rep : Repertoire σ) (h : Hub σ) : List Step → Hub σ × List Happening
  | [] => (h, [])
  | s :: ss =>
    let e := h.step rep s
    let (h, more) := run rep e.hub ss
    (h, e.happened ++ more)

/-- The step that worker `i` takes next by itself, if any: its task is looked at when it has been
woken, and its job goes on when it is not stuck at a gate. -/
def workerStep? (h : Hub σ) (i : Nat) (w : Worker) : Option Step :=
  if h.alive && w.awake && !w.phase.isOver then some (.pollWorker i)
  else
    match w.phase with
    | .holding _ => some (.advanceJob i)
    | .dispatching _ d => if d.isWaiting then none else some (.advanceJob i)
    | _ => none

/-- The first step that one of the workers takes next by itself, the first worker being `i`. -/
def workersStep? (h : Hub σ) (i : Nat) : List Worker → Option Step
  | [] => none
  | w :: ws => (h.workerStep? i w).or (workersStep? h (i + 1) ws)

def ownStep? (h : Hub σ) : Option Step :=
  match h.guests with
  | d :: _ => if d.isWaiting then h.workersStep? 0 h.workers else some .advanceGuest
  | [] => h.workersStep? 0 h.workers

/-- Lets the hub take steps by itself until there is none left, at most `fuel` of them. -/
def settle (rep : Repertoire σ) : Nat → Hub σ → Hub σ × List Happening
  | 0, h => (h, [])
  | fuel + 1, h =>
    match h.ownStep? with
    | none => (h, [])
    | some s =>
      let e := h.step rep s
      let (h, more) := settle rep fuel e.hub
      (h, e.happened ++ more)

end ReviewHub.Hub
