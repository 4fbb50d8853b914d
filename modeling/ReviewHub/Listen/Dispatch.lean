import ReviewHub.Listen.Script
/-!
# Dispatching an event

An event that is not ignored goes to the listeners that were registered when its dispatch began, one
after the other: first to the handler for its kind, and to the generic handler if that one declines.
A listener that fails or panics is reported and the next one has its turn.

A dispatch runs in small steps, so that several of them can run at the same time on one switchboard.
A handler may dispatch another event before it goes on, hence a dispatch is a stack of deliveries,
the innermost first. Every note of what happens has the number of deliveries around it.

A panic unwinds the stack. Each delivery catches the panics of the listener that it is calling, and
of no other code; what no delivery catches leaves the dispatch and ends the code that began it.
-/

namespace ReviewHub

inductive Occurrence where
  | logged (log : Log)
  | entered (listener : Listener) (handler : Handler) (event : Event)
  | acted (listener : Listener) (action : Action) (reply : Reply)
  | passedGate (listener : Listener)

/-- Something that happened, and how many deliveries it happened within. -/
structure Note where
  depth : Nat
  what : Occurrence

structure Call where
  listener : Listener
  handler : Handler
  script : Script

/-- The delivery of one event: the call that is running, and the listeners after it. -/
structure Delivery where
  event : Event
  call : Option Call
  remaining : List Listener

/-- Deliveries, the innermost first. -/
abbrev Dispatch := List Delivery

/-- How code that runs by itself has ended. -/
inductive Completion where
  | returned
  /-- A panic has left it. -/
  | panicked (panic : Panic)

/-- The switchboard and what the listeners remember. -/
structure Scene (σ : Type) where
  board : Switchboard
  memory : σ

namespace Dispatch

variable {σ : Type}

/-- Begins to deliver an event within `depth` deliveries, unless it is ignored. -/
def start (board : Switchboard) (depth : Nat) (e : Event) : Option Delivery × List Note :=
  if board.ignored.ignores e then (none, [⟨depth, .logged (.commentIgnored e)⟩])
  else
    let listeners := board.roster.listeners
    (some ⟨e, none, listeners⟩, [⟨depth, .logged (.notifying e listeners.length)⟩])

def report (c : Call) (e : Event) : Outcome → List Log
  | .handled => []
  | .declined => []
  | .failed error => [.handlerFailed c.listener e c.handler error]
  | .panicked p => [.listenerPanicked c.listener e p.message]

def enter (rep : Repertoire σ) (w : Scene σ) (l : Listener) (h : Handler) (e : Event) :
    Call × Scene σ :=
  let (script, memory) := rep l h e w.memory
  (⟨l, h, script⟩, { w with memory := memory })

/-- Notes at the given depth that records were logged. -/
def logNotes (depth : Nat) (logs : List Log) : List Note :=
  logs.map fun log => ⟨depth, .logged log⟩

/-- The end of the innermost delivery, of event `e`: the call that it was nested in goes on. -/
def leave (e : Event) (outer : Dispatch) : List Note :=
  match outer with
  | [] => []
  | d :: rest =>
    match d.call with
    | none => []
    | some c => [⟨rest.length, .acted c.listener (.notify e) .done⟩]

/-- Unwinds the stack with a panic up to the first delivery that is calling a listener. That one
catches it, reports it and goes on with its next listener. Nothing is left if there is none. -/
def unwind (p : Panic) : Dispatch → Option (Dispatch × List Note)
  | [] => none
  | d :: outer =>
    match d.call with
    | some c =>
      some ({ d with call := none } :: outer,
        logNotes outer.length (report c d.event (.panicked p)))
    | none => unwind p outer

/-- How the dispatch has ended, if it has. A panic ends it if nobody catches it. -/
def completion? : Dispatch → Option Completion
  | [] => some .returned
  | d :: outer =>
    match d.call with
    | some ⟨_, _, .ends (.panicked p)⟩ =>
      if (unwind p (d :: outer)).isSome then none else some (.panicked p)
    | _ => none

/-- One step of the innermost call `c` of the delivery `d`; nothing if it waits at a gate. -/
def stepCall (rep : Repertoire σ) (w : Scene σ) (d : Delivery) (c : Call) (outer : Dispatch) :
    Option (Scene σ × Dispatch × List Note) :=
  let depth := outer.length
  match c.script with
  | .ends outcome =>
    match c.handler, outcome with
    | .specific kind, .declined =>
      let (call, w) := enter rep w c.listener .generic d.event
      some (w, { d with call := some call } :: outer,
        [⟨depth, .logged (.noSpecificHandler c.listener kind)⟩,
          ⟨depth, .entered c.listener .generic d.event⟩])
    | _, .panicked p => (unwind p (d :: outer)).map fun (rest, notes) => (w, rest, notes)
    | _, outcome =>
      some (w, { d with call := none } :: outer, logNotes depth (report c d.event outcome))
  | .acts (.notify e) next =>
    let resumed := { d with call := some { c with script := next .done } } :: outer
    match start w.board (depth + 1) e with
    | (some inner, notes) => some (w, inner :: resumed, notes)
    | (none, notes) => some (w, resumed, notes ++ leave e resumed)
  | .acts action next =>
    let (reply, board, logs) := w.board.act action
    some ({ w with board := board },
      { d with call := some { c with script := next reply } } :: outer,
      logNotes depth logs ++ [⟨depth, .acted c.listener action reply⟩])
  | .waits _ => none

/-- One step of a dispatch; nothing if it is over or waits at a gate. -/
def step (rep : Repertoire σ) (w : Scene σ) : Dispatch → Option (Scene σ × Dispatch × List Note)
  | [] => none
  | d :: outer =>
    match d.call, d.remaining with
    | some c, _ => stepCall rep w d c outer
    | none, [] => some (w, outer, leave d.event outer)
    | none, l :: ls =>
      let (call, w) := enter rep w l (.specific d.event.kind) d.event
      some (w, { d with call := some call, remaining := ls } :: outer,
        [⟨outer.length, .entered l (.specific d.event.kind) d.event⟩])

def passGate? : Dispatch → Option (Dispatch × List Note)
  | ⟨e, some ⟨l, h, .waits next⟩, remaining⟩ :: outer =>
    some (⟨e, some ⟨l, h, next⟩, remaining⟩ :: outer, [⟨outer.length, .passedGate l⟩])
  | _ => none

def isWaiting (d : Dispatch) : Bool := (passGate? d).isSome

/-- Steps until the dispatch is over or waits at a gate, at most `fuel` times. -/
def run (rep : Repertoire σ) : Nat → Scene σ → Dispatch → Scene σ × Dispatch × List Note
  | 0, w, d => (w, d, [])
  | fuel + 1, w, d =>
    match step rep w d with
    | none => (w, d, [])
    | some (w, d, notes) =>
      let (w, d, more) := run rep fuel w d
      (w, d, notes ++ more)

/-- Dispatches an event on a switchboard of its own, at most `fuel` steps. -/
def notify (rep : Repertoire σ) (fuel : Nat) (w : Scene σ) (e : Event) :
    Scene σ × Dispatch × List Note :=
  let (d, notes) := start w.board 0 e
  let (w, d, more) := run rep fuel w d.toList
  (w, d, notes ++ more)

end Dispatch

end ReviewHub
