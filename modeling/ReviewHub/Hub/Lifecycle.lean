import ReviewHub.Hub.Basic
/-!
# The life of a hub

Shutting a hub down gives the signal to stop, once and for all. The call that does it may wait until
all workers have ended; a later call returns at once. Dropping a hub gives the signal without
waiting. When what the workers run on goes away, workers that wait are cut off, and those with an
envelope finish it first.
-/

namespace ReviewHub.Hub

variable {σ : Type}

inductive Progress where
  | pending
  | ok
  | failed (error : Error)

/-- Goes through the workers that a shutdown waits for, in order, up to the first that has not
ended, and reports those that were cut off. -/
def joinWorkers (workers : List Worker) (failure : Option Error) :
    List Nat → Joining × List Log
  | [] => (⟨[], failure⟩, [])
  | i :: is =>
    match workers[i]? with
    | none => joinWorkers workers failure is
    | some w =>
      match w.phase with
      | .cutOff =>
        let (j, logs) := joinWorkers workers (failure.or (some (.workerJoin i))) is
        (j, .workerFailed i :: logs)
      | .stopped => joinWorkers workers failure is
      | _ => (⟨i :: is, failure⟩, [])

def pollShutdown (h : Hub σ) : Effect σ (Option Progress) :=
  match h.joining with
  | none => { answer := none, hub := h }
  | some j =>
    let (j, logs) := joinWorkers h.workers j.failure j.remaining
    let happened := logs.map Happening.logged
    if j.remaining = [] then
      { answer := some (match j.failure with | none => .ok | some e => .failed e)
        hub := { h with joining := none }
        happened := happened ++ [.logged (.shutDown h.pendingWork)] }
    else { answer := some .pending, hub := { h with joining := some j }, happened := happened }

/-- Shuts the hub down. With `join` the call waits until all workers have ended. -/
def shutdown (h : Hub σ) (join : Bool) : Effect σ Progress :=
  match h.life with
  | .shutDown => { answer := .ok, hub := h, happened := [.logged .alreadyShutDown] }
  | .running =>
    let stopped := { h with life := .shutDown, handles := [] }.withStop
    if join then
      let e := { stopped with joining := some ⟨h.handles, none⟩ }.pollShutdown
      { answer := e.answer.getD .ok, hub := e.hub, happened := e.happened }
    else
      { answer := .ok
        hub := stopped
        happened := [.logged (.signalledToStop stopped.pendingWork)] }

/-- Abandons the shutdown that waits. The hub stays shut down. -/
def dropShutdown (h : Hub σ) : Hub σ := { h with joining := none }

/-- Drops the hub. Its queue and switchboard may still be in use by somebody outside. -/
def drop (h : Hub σ) : Hub σ := h.withStop

/-- Cuts off a worker that is not at work. -/
def cutOffWorker (w : Worker) : Worker :=
  match w.phase with
  | .fresh => { w with phase := .cutOff, awake := false }
  | .pulling _ => { w with phase := .cutOff, awake := false }
  | .finished _ => { w with phase := .cutOff, awake := false }
  | _ => w

/-- Takes away what the workers run on. Their waiting pulls are gone with them. -/
def killRuntime (h : Hub σ) : Hub σ :=
  let tickets := h.workers.filterMap fun w =>
    match w.phase with
    | .pulling t => some t
    | _ => none
  { h with
    alive := false
    queue := tickets.foldl Queue.dropPull h.queue
    workers := h.workers.map cutOffWorker }

/-- Stores the number of workers that the next hub should have. -/
def setWorkerCount (h : Hub σ) (count : UInt64) : Effect σ Unit :=
  { answer := ()
    hub := { h with workerCount := count }
    happened :=
      if h.workerCount = count then []
      else [.logged (.workerCountChanged h.workerCount.toNat count.toNat h.runningWorkers)] }

end ReviewHub.Hub
