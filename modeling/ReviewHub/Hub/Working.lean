import ReviewHub.Hub.Basic
/-!
# Workers at work

A worker's task asks for the signal to stop before it asks for work, so a worker that has been
stopped never takes another envelope. Its job parses the item it holds and dispatches the event, if
there is one; whatever goes wrong there is reported, and the worker goes on.

Panics are caught in three places. The job catches those of the parser; each delivery catches those
of the listener that it is calling; and the task finds out how its job has ended, so that it would
outlive a panic that neither of them catches. What the job runs besides, such as the formatting of
records, is taken not to panic.
-/

namespace ReviewHub.Hub

variable {σ : Type}

/-! ### Tasks -/

def endWorker (h : Hub σ) (i : Nat) (name : String) : Effect σ Unit :=
  { answer := (), hub := h.withPhase i .stopped false, happened := [.logged (.workerStopped name)] }

/-- The outcome of worker `i`'s pull `t`: it has an envelope now, or waits. -/
def afterPull (h : Hub σ) (i : Nat) (t : Ticket) (e? : Option Envelope) (q : Queue) :
    Effect σ Unit :=
  match e? with
  | some e =>
    { answer := ()
      hub := (h.withQueue q).withPhase i (.holding e) false
      happened := [.taken (.worker i) e] }
  | none => { answer := (), hub := (h.withQueue q).withPhase i (.pulling t) false }

/-- Worker `i` looks for work, unless it is to stop. -/
def lookForWork (h : Hub σ) (i : Nat) (name : String) : Effect σ Unit :=
  if h.stopping then h.endWorker i name
  else
    let (e?, q) := h.queue.pull h.next
    { h with next := h.next + 1 }.afterPull i h.next e? q

/-- What a worker reports when it finds that its job has ended. -/
def jobLogs (name : String) : Completion → List Log
  | .returned => []
  | .panicked p => [.jobPanicked name p.text?]

def pollWorker (h : Hub σ) (i : Nat) : Effect σ Unit :=
  match h.alive, h.workers[i]? with
  | true, some w =>
    match w.phase with
    | .fresh =>
      let e := h.lookForWork i w.name
      { e with happened := .logged (.workerStarted w.name) :: e.happened }
    | .pulling t =>
      if h.stopping then (h.withQueue (h.queue.dropPull t)).endWorker i w.name
      else
        let (e?, q) := h.queue.pollPull t
        h.afterPull i t e? q
    | .finished job =>
      let e := h.lookForWork i w.name
      { e with happened := (jobLogs w.name job).map Happening.logged ++ e.happened }
    | phase => { answer := (), hub := h.withPhase i phase false }
  | _, _ => { answer := (), hub := h }

/-! ### Jobs -/

/-- The job of worker `i` ends. Where nothing runs any more nobody finds out how. -/
def finishJob (h : Hub σ) (i : Nat) (job : Completion) : Hub σ :=
  if h.alive then h.withPhase i (.finished job) true else h.withPhase i .cutOff false

def beginDispatch (h : Hub σ) (source : Source) (e : Event) : Dispatch × List Happening :=
  let (d, notes) := Dispatch.start h.scene.board 0 e
  (d.toList, .notified source e :: notes.map (.dispatched source))

def openEnvelope (h : Hub σ) (i : Nat) (name : String) (work : Envelope) : Effect σ Unit :=
  let parsed := work.item.intoEvent h.parser
  let logs := (Log.performing name work :: parsed.logs).map Happening.logged
  match parsed.reading with
  | .event e =>
    let (d, happened) := h.beginDispatch (.worker i) e
    { answer := ()
      hub := h.withPhase i (.dispatching work d) false
      happened := logs ++ happened }
  | .nothing =>
    { answer := ()
      hub := h.finishJob i .returned
      happened := logs ++ [.logged (.nothingToDispatch name work)] }
  | .failed error =>
    { answer := ()
      hub := h.finishJob i .returned
      happened := logs ++ [.logged (.unparseable name work error)] }
  | .panicked =>
    { answer := ()
      hub := h.finishJob i .returned
      happened := logs ++ [.logged (.parserPanicked name work)] }

/-- Takes the job of worker `i` one step further, if it has one that is not stuck. -/
def advanceJob (rep : Repertoire σ) (h : Hub σ) (i : Nat) : Effect σ Unit :=
  match h.workers[i]? with
  | none => { answer := (), hub := h }
  | some w =>
    match w.phase with
    | .holding work => h.openEnvelope i w.name work
    | .dispatching work d =>
      match d.completion? with
      | some job => { answer := (), hub := h.finishJob i job }
      | none =>
        match d.step rep h.scene with
        | none => { answer := (), hub := h }
        | some (scene, d, notes) =>
          { answer := ()
            hub := { h with scene := scene }.withPhase i (.dispatching work d) w.awake
            happened := notes.map (.dispatched (.worker i)) }
    | _ => { answer := (), hub := h }

/-- Lets the job of worker `i` pass the gate that it is stuck at. Answers whether it was. -/
def passGate (h : Hub σ) (i : Nat) : Effect σ Bool :=
  match h.workers[i]? with
  | some ⟨_, .dispatching work d, awake⟩ =>
    match d.passGate? with
    | some (d, notes) =>
      { answer := true
        hub := h.withPhase i (.dispatching work d) awake
        happened := notes.map (.dispatched (.worker i)) }
    | none => { answer := false, hub := h }
  | _ => { answer := false, hub := h }

end ReviewHub.Hub
