import ReviewHub.Hub.Step
/-!
# Deeds

Whoever drives a loop of their own pulls from the queue of a hub and may let a pull wait there, in
one line with those of the workers. So a deed is a step of the hub or something that such a pull
goes through; the pulls of the workers are out of reach. Before the signal to stop, a push from
outside needs no deed of its own: while its token is not cancelled it is a submission, and once it
is, one that is dropped.
-/

namespace ReviewHub.Hub

variable {σ : Type}

/-- Something that happens to a hub whose queue is also pulled from outside. -/
inductive Deed where
  | step (s : Step)
  /-- A pull begins, under the hub's `next`. -/
  | pull
  | pollPull (t : Ticket)
  | dropPull (t : Ticket)

/-- A pull from outside was looked at: what it got, the queue then, and the next ticket. -/
def afterPullOutside (h : Hub σ) (work : Option Envelope) (q : Queue) (next : Ticket) :
    Effect σ Unit :=
  { answer := ()
    hub := { h with next := next }.withQueue q
    happened := work.toList.map (.taken .guest) }

def deed (rep : Repertoire σ) (h : Hub σ) : Deed → Effect σ Unit
  | .step s => (h.step rep s).answering fun _ => ()
  | .pull =>
    let (work, q) := h.queue.pull h.next
    h.afterPullOutside work q (h.next + 1)
  | .pollPull t =>
    if h.workers.any (isPulling t) then { answer := (), hub := h }
    else
      let (work, q) := h.queue.pollPull t
      h.afterPullOutside work q h.next
  | .dropPull t =>
    if h.workers.any (isPulling t) then { answer := (), hub := h }
    else h.afterPullOutside none (h.queue.dropPull t) h.next

/-- The hub after a sequence of deeds, and all that happened, in order. -/
def play (rep : Repertoire σ) (h : Hub σ) : List Deed → Hub σ × List Happening
  | [] => (h, [])
  | d :: ds =>
    let e := h.deed rep d
    let (h, more) := play rep e.hub ds
    (h, e.happened ++ more)

end ReviewHub.Hub
