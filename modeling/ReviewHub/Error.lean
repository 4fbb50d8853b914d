import ReviewHub.Json.Fault
/-!
# Errors

What can go wrong in the hub, by cause.
-/

namespace ReviewHub

/-- An error of the hub or of code that it calls. -/
inductive Error where
  | invalidConfig (reason : String)
  /-- There is nothing that workers could run on. -/
  | runtimeUnavailable
  /-- The worker with the number was cut off before it ended. -/
  | workerJoin (worker : Nat)
  | parse (fault : Json.Fault)
  | queueClosed
  | interrupted
  /-- An error of code outside the library. -/
  | external (message : String)
deriving Inhabited

namespace Error

/-- The error of a queue that could hold nothing. -/
def noCapacity : Error := .invalidConfig "queue capacity must be greater than zero"

/-- How a worker's end is described when it was cut off. -/
def cutOff (worker : Nat) : String :=
  "task " ++ toString worker ++ " was cancelled"

/-- How the end of a job is described that panicked, with the text of the panic if it has one. The
number that the runtime has given to the job is left out. -/
def jobPanicked : Option String → String
  | some s => "task panicked with message " ++ Text.quoted s
  | none => "task panicked"

def message : Error → String
  | invalidConfig reason => "Invalid configuration: " ++ reason
  | runtimeUnavailable =>
    "Workers need a Tokio runtime: there is no reactor running, " ++
      "must be called from the context of a Tokio 1.x runtime"
  | workerJoin worker => "Worker task join error: " ++ cutOff worker
  | parse fault => "Couldn't parse event payload: " ++ fault.message
  | queueClosed => "The work queue has been closed."
  | interrupted => "Interrupted while waiting for work queue capacity."
  | external message => "Error external to gerrit-events occurred: " ++ message

end Error

end ReviewHub
