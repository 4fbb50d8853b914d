import ReviewHub.Error
import ReviewHub.Json.Render
import ReviewHub.Listen.Listener
import ReviewHub.Work.Item
/-!
# Log records

Everything that the hub reports, by cause. `level`, `message` and `fields` say how a record is
written.
-/

namespace ReviewHub

inductive Level where
  | trace
  | debug
  | info
  | warn
  | error
deriving DecidableEq, Repr

namespace Level

def name : Level → String
  | trace => "TRACE"
  | debug => "DEBUG"
  | info => "INFO"
  | warn => "WARN"
  | error => "ERROR"

def rank : Level → Nat
  | trace => 0
  | debug => 1
  | info => 2
  | warn => 3
  | error => 4

end Level

inductive LogValue where
  | text (s : String)
  | count (n : Nat)
deriving DecidableEq, Repr

/-- Something that the hub reports. -/
inductive Log where
  /- Reading the stream -/
  | notObject (line : String)
  | notJson (line : String) (fault : Json.Fault)
  | uninteresting (type : Option String)
  /- Listeners -/
  | doublyAdded (listener : Listener)
  | commentIgnored (event : Event)
  | notifying (event : Event) (listeners : Nat)
  | noSpecificHandler (listener : Listener) (kind : Kind)
  | handlerFailed (listener : Listener) (event : Event) (handler : Handler) (error : Error)
  | listenerPanicked (listener : Listener) (event : Event) (panic : String)
  /- Submitting -/
  | textSubmitted (payload : String)
  | jsonSubmitted (payload : Json)
  | eventSubmitted (event : Event)
  | enqueuing (work : Envelope)
  | queueFull
  | abandoned (work : Envelope)
  | notEnqueued (work : Envelope) (error : Error)
  /- Working -/
  | workerStarted (worker : String)
  | workerStopped (worker : String)
  | performing (worker : String) (work : Envelope)
  | nothingToDispatch (worker : String) (work : Envelope)
  | unparseable (worker : String) (work : Envelope) (error : Error)
  | parserPanicked (worker : String) (work : Envelope)
  /-- The job of an envelope has panicked, with a text or without. -/
  | jobPanicked (worker : String) (panic : Option String)
  /- The hub's life -/
  | started (workers : Nat) (capacity : Option Nat)
  | workerCountChanged (previous count running : Nat)
  | alreadyShutDown
  | signalledToStop (pending : Nat)
  | workerFailed (worker : Nat)
  | shutDown (pending : Nat)

namespace Log

/-- An optional value as diagnostics show it. -/
def optionText : Option String → String
  | none => "None"
  | some s => "Some(" ++ s ++ ")"

def level : Log → Level
  | notObject _ => .debug
  | notJson _ _ => .debug
  | uninteresting _ => .trace
  | doublyAdded _ => .warn
  | commentIgnored _ => .trace
  | notifying _ _ => .trace
  | noSpecificHandler _ _ => .debug
  | handlerFailed _ _ _ _ => .error
  | listenerPanicked _ _ _ => .error
  | textSubmitted _ => .debug
  | jsonSubmitted _ => .debug
  | eventSubmitted _ => .debug
  | enqueuing _ => .trace
  | queueFull => .trace
  | abandoned _ => .warn
  | notEnqueued _ _ => .warn
  | workerStarted _ => .debug
  | workerStopped _ => .debug
  | performing _ _ => .trace
  | nothingToDispatch _ _ => .trace
  | unparseable _ _ _ => .warn
  | parserPanicked _ _ => .error
  | jobPanicked _ _ => .error
  | started _ _ => .info
  | workerCountChanged _ _ _ => .info
  | alreadyShutDown => .debug
  | signalledToStop _ => .info
  | workerFailed _ => .error
  | shutDown _ => .info

def message : Log → String
  | notObject _ => "Not a JSON object, ignoring"
  | notJson _ _ => "Not JSON, ignoring"
  | uninteresting _ => "Uninteresting event type"
  | doublyAdded _ => "The listener was doubly-added"
  | commentIgnored _ => "comment-added ignored"
  | notifying _ _ => "notifying listeners"
  | noSpecificHandler _ _ => "No specific handler, calling on_event"
  | handlerFailed _ _ .generic _ => "When notifying listener"
  | handlerFailed _ _ (.specific _) _ => "Error thrown during event handling"
  | listenerPanicked _ _ _ => "Listener panicked"
  | textSubmitted _ => "Trigger event string"
  | jsonSubmitted _ => "Trigger event json object"
  | eventSubmitted _ => "Internally trigger event"
  | enqueuing _ => "putting work on queue"
  | queueFull => "work queue full, waiting for capacity"
  | abandoned _ => "Work item dropped while waiting for queue capacity"
  | notEnqueued _ _ => "Work item dropped while putting it on the queue"
  | workerStarted _ => "worker started"
  | workerStopped _ => "worker stopped"
  | performing _ _ => "performing work"
  | nothingToDispatch _ _ => "nothing to dispatch"
  | unparseable _ _ _ => "Dropping unparseable work item"
  | parserPanicked _ _ => "Parser panicked, dropping work item"
  | jobPanicked _ _ => "Work item processing aborted"
  | started _ _ => "Gerrit event handler started"
  | workerCountChanged _ _ _ => "Worker count changed; running workers are not resized"
  | alreadyShutDown => "Gerrit event handler already shut down"
  | signalledToStop _ => "Gerrit event handler signalled to stop"
  | workerFailed _ => "Worker task failed"
  | shutDown _ => "Gerrit event handler shut down"

def fields : Log → List (String × LogValue)
  | notObject line => [("line", .text line)]
  | notJson line fault => [("line", .text line), ("error", .text fault.message)]
  | uninteresting type => [("kind", .text (optionText (type.map Text.quoted)))]
  | doublyAdded l => [("listener", .text l.name)]
  | commentIgnored e => [("event", .text e.display)]
  | notifying e n => [("event", .text e.display), ("listeners", .count n)]
  | noSpecificHandler l k => [("listener", .text l.name), ("kind", .text k.name)]
  | handlerFailed l e h error =>
    [("listener", .text l.name), ("event", .text e.display), ("kind", .text e.kind.name),
      ("handler", .text h.name), ("error", .text error.message)]
  | listenerPanicked l e panic =>
    [("listener", .text l.name), ("event", .text e.display), ("kind", .text e.kind.name),
      ("panic", .text panic)]
  | textSubmitted payload => [("payload", .text payload)]
  | jsonSubmitted payload => [("payload", .text payload.render)]
  | eventSubmitted e => [("event", .text e.display)]
  | enqueuing w => [("work_id", .text w.shortId)]
  | queueFull => []
  | abandoned w => [("work_id", .text w.shortId)]
  | notEnqueued w error => [("work_id", .text w.shortId), ("error", .text error.message)]
  | workerStarted name => [("worker", .text name)]
  | workerStopped name => [("worker", .text name)]
  | performing name w =>
    [("worker", .text name), ("work_id", .text w.shortId), ("item", .text w.item.display)]
  | nothingToDispatch name w => [("worker", .text name), ("work_id", .text w.shortId)]
  | unparseable name w error =>
    [("worker", .text name), ("work_id", .text w.shortId), ("error", .text error.message)]
  | parserPanicked name w => [("worker", .text name), ("work_id", .text w.shortId)]
  | jobPanicked name panic => [("worker", .text name), ("error", .text (Error.jobPanicked panic))]
  | started workers capacity =>
    [("workers", .count workers),
      ("queue_capacity", .text (optionText (capacity.map toString)))]
  | workerCountChanged previous count running =>
    [("previous", .count previous), ("count", .count count), ("running", .count running)]
  | alreadyShutDown => []
  | signalledToStop pending => [("pending", .count pending)]
  | workerFailed worker => [("error", .text (Error.cutOff worker))]
  | shutDown pending => [("pending", .count pending)]

end Log

end ReviewHub
