import ReviewHub.Hub.Basic
/-!
# Submitting work

A submission puts an item into an envelope and pushes it. It never fails: what cannot be queued is
dropped with a warning. A submission that waits for capacity is known by its ticket and has to be
looked at again; if it is abandoned instead, that is reported too.
-/

namespace ReviewHub.Hub

variable {σ : Type}

def submissionLog : WorkItem → Log
  | .text payload _ => .textSubmitted payload
  | .json payload _ => .jsonSubmitted payload
  | .event e => .eventSubmitted e

/-- What has happened to the envelope of a submission that was looked at. -/
def settled (work : Envelope) : Pushed → List Happening
  | .accepted => [.accepted work]
  | .interrupted => [.logged (.notEnqueued work .interrupted)]
  | .waiting => []

/-- Submits the item of an envelope. If the submission waits, its ticket is the hub's `next`. -/
def submit (h : Hub σ) (work : Envelope) : Effect σ Pushed :=
  let (p, q, logs) := h.queue.push h.next work h.stopping
  let logs := submissionLog work.item :: .enqueuing work :: logs
  { answer := p
    hub := { h.withQueue q with next := h.next + 1 }
    happened := logs.map .logged ++ settled work p }

def pollSubmission (h : Hub σ) (t : Ticket) : Effect σ (Option Pushed) :=
  match h.queue.waiter? t with
  | none => { answer := none, hub := h }
  | some w =>
    let (p, q) := h.queue.pollPush w h.stopping
    { answer := some p, hub := h.withQueue q, happened := settled w.work p }

/-- Abandons a waiting submission. Answers whether there was one. -/
def dropSubmission (h : Hub σ) (t : Ticket) : Effect σ Bool :=
  match h.queue.waiter? t with
  | none => { answer := false, hub := h }
  | some w =>
    let (q, logs) := h.queue.dropPush w
    { answer := true, hub := h.withQueue q, happened := logs.map .logged }

end ReviewHub.Hub
