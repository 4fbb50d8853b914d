import ReviewHub.Work.Queue
/-!
# Using a queue

Producers and pullers use a queue by operations in any order. A push or pull is started under a
ticket, and if it has to wait it goes by that ticket until it is served, interrupted or dropped. A
push also carries a token; once the token has been cancelled, the push no longer waits.
-/

namespace ReviewHub

/-- By what a push can be interrupted. -/
abbrev Token := String

/-- A queue in use. -/
structure Session where
  queue : Queue
  /-- The tokens of the pushes that have had to wait, the latest first. -/
  tokens : List (Ticket × Token) := []
  /-- The tokens that have been cancelled. -/
  cancelled : List Token := []

inductive Operation where
  | push (t : Ticket) (work : Envelope) (token : Token)
  | pollPush (t : Ticket)
  | dropPush (t : Ticket)
  | pull (t : Ticket)
  | pollPull (t : Ticket)
  | dropPull (t : Ticket)
  | tryPull
  | cancel (token : Token)

inductive Answer where
  /-- There is nothing to say, or nothing that waits under the ticket. -/
  | none
  /-- What has become of the push of the envelope. -/
  | pushed (work : Envelope) (p : Pushed)
  | pulled (work : Option Envelope)

namespace Session

/-- A queue that nobody has used. -/
def ofQueue (q : Queue) : Session := { queue := q }

def inUse (s : Session) (t : Ticket) : Bool :=
  (s.queue.waiter? t).isSome || s.queue.pulls.contains t

def isCancelled (s : Session) (token : Token) : Bool := s.cancelled.contains token

/-- The waiting push with the ticket has been interrupted. -/
def isInterrupted (s : Session) (t : Ticket) : Bool :=
  match s.tokens.lookup t with
  | some token => s.isCancelled token
  | none => false

/-- The session after an operation, its answer and what is reported. Nothing is started under a
ticket that is in use. -/
def apply (s : Session) : Operation → Answer × Session × List Log
  | .push t work token =>
    if s.inUse t then (.none, s, [])
    else
      let (p, q, logs) := s.queue.push t work (s.isCancelled token)
      let tokens := if p = .waiting then (t, token) :: s.tokens else s.tokens
      (.pushed work p, { s with queue := q, tokens := tokens }, logs)
  | .pollPush t =>
    match s.queue.waiter? t with
    | some w =>
      let (p, q) := s.queue.pollPush w (s.isInterrupted t)
      (.pushed w.work p, { s with queue := q }, [])
    | none => (.none, s, [])
  | .dropPush t =>
    match s.queue.waiter? t with
    | some w =>
      let (q, logs) := s.queue.dropPush w
      (.none, { s with queue := q }, logs)
    | none => (.none, s, [])
  | .pull t =>
    if s.inUse t then (.none, s, [])
    else
      let (e?, q) := s.queue.pull t
      (.pulled e?, { s with queue := q }, [])
  | .pollPull t =>
    if t ∈ s.queue.pulls then
      let (e?, q) := s.queue.pollPull t
      (.pulled e?, { s with queue := q }, [])
    else (.none, s, [])
  | .dropPull t => (.none, { s with queue := s.queue.dropPull t }, [])
  | .tryPull =>
    let (e?, q) := s.queue.tryPull
    (.pulled e?, { s with queue := q }, [])
  | .cancel token => (.none, { s with cancelled := token :: s.cancelled }, [])

/-- The session after a sequence of operations, and their answers in order. -/
def run (s : Session) : List Operation → List Answer × Session
  | [] => ([], s)
  | o :: os =>
    let (a, s, _) := s.apply o
    let (answers, s) := s.run os
    (a :: answers, s)

end Session

end ReviewHub
