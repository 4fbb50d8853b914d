import ReviewHub.Log
/-!
# The work queue

The single line of envelopes between producers and workers. A bounded queue has as many slots as
its capacity; every envelope in it takes one up. A push that finds no free slot waits in line, and
a slot that is given back goes to the first waiting push that owns none: it is reserved at once,
even if that push is looked at only later. Pulls are served one at a time in the order of their
arrival: the first pull in line holds the right to take, and keeps it while there is nothing to
take.

A push or pull that waits is known by its ticket. Nothing is stored that an envelope could be lost
in: it is with its waiting push, in the queue, or handed out. A queue owns both ends of its line and
is never closed, so a push fails by an interruption only, and no pull comes to an end empty-handed.
-/

namespace ReviewHub

/-- What a waiting push or pull is known by. -/
abbrev Ticket := Nat

structure Waiter where
  ticket : Ticket
  work : Envelope
  /-- A slot is reserved for it. -/
  granted : Bool

structure Queue where
  /-- How many envelopes the queue holds at most; `none` for any number. -/
  capacity : Option Nat
  /-- Slots that are neither taken up nor reserved, of a bounded queue. -/
  free : Nat
  items : List Envelope := []
  /-- The length as it is counted: up when an envelope comes in, down when one is handed out. -/
  queued : Int := 0
  /-- Pushes that wait for a slot, in order of arrival. -/
  waiting : List Waiter := []
  /-- Pulls that wait, in order of arrival; the first one holds the right to take. -/
  pulls : List Ticket := []

inductive Pushed where
  | accepted
  | interrupted
  | waiting
deriving DecidableEq, Repr

/-- What building something came to. -/
inductive Built (α : Type) where
  | ok (a : α)
  | refused (error : Error)
  /-- The building itself gave up. -/
  | panicked

namespace Queue

/-- The greatest capacity that a queue can be built with, `2 ^ 61 - 1`. -/
def maxCapacity : Nat := 0x1FFFFFFFFFFFFFFF

def build : Option Nat → Built Queue
  | none => .ok { capacity := none, free := 0 }
  | some n =>
    if n = 0 then .refused .noCapacity
    else if maxCapacity < n then .panicked
    else .ok { capacity := some n, free := n }

/-- The number of envelopes in the queue, by the count. -/
def size (q : Queue) : Nat := q.queued.toNat

/-- There is no envelope in the queue, by the count. -/
def isEmpty (q : Queue) : Bool := q.size == 0

def describe (q : Queue) : String :=
  "WorkQueue \x7b capacity: " ++ Log.optionText (q.capacity.map toString) ++ ", pending: " ++
    toString q.size ++ " \x7d"

/-! ### Slots -/

/-- Reserves a slot for the first waiting push that owns none. -/
def grantFirst : List Waiter → Option (List Waiter)
  | [] => none
  | w :: ws =>
    if w.granted then (grantFirst ws).map (w :: ·)
    else some ({ w with granted := true } :: ws)

/-- Gives a slot back: to the first waiting push that owns none, or else it is free. -/
def giveSlot (q : Queue) : Queue :=
  match grantFirst q.waiting with
  | some ws => { q with waiting := ws }
  | none => { q with free := q.free + 1 }

@[simp] theorem items_giveSlot (q : Queue) : q.giveSlot.items = q.items := by
  unfold giveSlot; split <;> rfl

@[simp] theorem queued_giveSlot (q : Queue) : q.giveSlot.queued = q.queued := by
  unfold giveSlot; split <;> rfl

@[simp] theorem pulls_giveSlot (q : Queue) : q.giveSlot.pulls = q.pulls := by
  unfold giveSlot; split <;> rfl

/-- Puts an envelope at the end; its slot is already taken. -/
def append (q : Queue) (e : Envelope) : Queue :=
  { q with items := q.items ++ [e], queued := q.queued + 1 }

@[simp] theorem items_append (q : Queue) (e : Envelope) :
    (q.append e).items = q.items ++ [e] := rfl

@[simp] theorem queued_append (q : Queue) (e : Envelope) :
    (q.append e).queued = q.queued + 1 := rfl

/-- Takes the waiting push with the ticket out of the line. -/
def leaveLine (q : Queue) (t : Ticket) : Queue :=
  { q with waiting := q.waiting.filter (·.ticket ≠ t) }

def waiter? (q : Queue) (t : Ticket) : Option Waiter := q.waiting.find? (·.ticket = t)

/-- Takes a waiting push out of the line and passes on the slot that it owns. -/
def withdraw (q : Queue) (w : Waiter) : Queue :=
  let q := q.leaveLine w.ticket
  if w.granted then q.giveSlot else q

@[simp] theorem items_withdraw (q : Queue) (w : Waiter) : (q.withdraw w).items = q.items := by
  unfold withdraw; split <;> simp [leaveLine]

@[simp] theorem queued_withdraw (q : Queue) (w : Waiter) :
    (q.withdraw w).queued = q.queued := by
  unfold withdraw; split <;> simp [leaveLine]

@[simp] theorem pulls_withdraw (q : Queue) (w : Waiter) : (q.withdraw w).pulls = q.pulls := by
  unfold withdraw; split <;> simp [leaveLine]

/-! ### Pushing -/

/-- Pushes an envelope. Without a free slot the push joins the line under `t`, unless it has been
interrupted. -/
def push (q : Queue) (t : Ticket) (e : Envelope) (interrupted : Bool) :
    Pushed × Queue × List Log :=
  match q.capacity, q.free with
  | none, _ => (.accepted, q.append e, [])
  | some _, free + 1 => (.accepted, { q with free := free }.append e, [])
  | some _, 0 =>
    if interrupted then (.interrupted, q, [.queueFull])
    else (.waiting, { q with waiting := q.waiting ++ [⟨t, e, false⟩] }, [.queueFull])

/-- Looks again at the waiting push `w`. An interruption comes before a reserved slot. -/
def pollPush (q : Queue) (w : Waiter) (interrupted : Bool) : Pushed × Queue :=
  if interrupted then (.interrupted, q.withdraw w)
  else if w.granted then (.accepted, (q.leaveLine w.ticket).append w.work)
  else (.waiting, q)

/-- Abandons the waiting push `w`; its envelope is lost. -/
def dropPush (q : Queue) (w : Waiter) : Queue × List Log :=
  (q.withdraw w, [.abandoned w.work])

/-! ### Pulling -/

/-- Hands out the first envelope, if there is one; its slot is given back. -/
def take (q : Queue) : Option (Envelope × Queue) :=
  match q.items with
  | [] => none
  | e :: es =>
    let q := { q with items := es, queued := q.queued - 1 }
    some (e, if q.capacity.isSome then q.giveSlot else q)

/-- Nothing can be taken exactly when nothing is there. -/
theorem take_eq_none_iff {q : Queue} : q.take = none ↔ q.items = [] := by
  unfold take; split <;> simp [*]

/-- The oldest envelope is taken. -/
theorem items_of_take {q r : Queue} {e : Envelope} (h : q.take = some (e, r)) :
    q.items = e :: r.items := by
  unfold take at h
  split at h
  · cases h
  · next es hes =>
    obtain ⟨rfl, rfl⟩ := Prod.mk.inj (Option.some.inj h)
    split <;> simp [hes]

def dropPull (q : Queue) (t : Ticket) : Queue :=
  { q with pulls := q.pulls.filter (· ≠ t) }

@[simp] theorem items_dropPull (q : Queue) (t : Ticket) : (q.dropPull t).items = q.items := rfl

/-- Looks again at the pull `t`: if it is the first in line it is served as soon as there is
something to take. -/
def pollPull (q : Queue) (t : Ticket) : Option Envelope × Queue :=
  if q.pulls.head? = some t then
    match q.take with
    | some (e, q) => (some e, q.dropPull t)
    | none => (none, q)
  else (none, q)

/-- Pulls an envelope; a pull that has to wait joins the line under `t`. -/
def pull (q : Queue) (t : Ticket) : Option Envelope × Queue :=
  { q with pulls := q.pulls ++ [t] }.pollPull t

/-- Takes the first envelope if there is one and no pull waits. -/
def tryPull (q : Queue) : Option Envelope × Queue :=
  match q.pulls, q.take with
  | [], some (e, q) => (some e, q)
  | _, _ => (none, q)

/-! ### Waking -/

/-- The pull that has to be looked at again after a change: the first in line, if it has become the
first or if there is something to take where there was nothing. -/
def signalled? (before after : Queue) : Option Ticket :=
  if before.pulls.head? = after.pulls.head? ∧ (after.items = [] ∨ before.items ≠ []) then none
  else after.pulls.head?

end Queue

end ReviewHub
