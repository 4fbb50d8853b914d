import ReviewHub.Work.Queue
import Mathlib.Data.List.Basic

/-!
# The contents of a queue and the line before it

What each operation does to two views of a queue: the envelopes in it, and the pushes that wait,
as pairs of a ticket and an envelope. Slots move between waiting pushes without a trace in
either view, so the statements hold for bounded and unbounded queues alike.
-/

namespace ReviewHub

/-- What a push of `work` has brought into the queue. -/
def Pushed.landed (work : Envelope) : Pushed → List Envelope
  | .accepted => [work]
  | .interrupted => []
  | .waiting => []

namespace Queue

/-- The pushes that wait, in order of arrival, whether they own a slot or not. -/
def line (q : Queue) : List (Ticket × Envelope) := q.waiting.map fun w => (w.ticket, w.work)

/-- The envelope of the push that waits under the ticket. -/
def workOf? (q : Queue) (t : Ticket) : Option Envelope := (q.waiter? t).map Waiter.work

theorem workOf?_eq_find? (q : Queue) (t : Ticket) :
    q.workOf? t = (q.line.find? (·.1 = t)).map Prod.snd := by
  simp [workOf?, waiter?, line, List.find?_map, Function.comp_def]

theorem workOf?_of_waiter? {q : Queue} {t : Ticket} {w : Waiter} (h : q.waiter? t = some w) :
    q.workOf? t = some w.work := by
  simp [workOf?, h]

theorem workOf?_of_waiter?_none {q : Queue} {t : Ticket} (h : q.waiter? t = none) :
    q.workOf? t = none := by
  simp [workOf?, h]

theorem ticket_of_waiter? {q : Queue} {t : Ticket} {w : Waiter} (h : q.waiter? t = some w) :
    w.ticket = t := by
  simpa using List.find?_some h

/-- The tickets in line. -/
def tickets (q : Queue) : List Ticket := q.line.map Prod.fst

/-- The envelopes in line. -/
def works (q : Queue) : List Envelope := q.line.map Prod.snd

theorem waiter?_eq_none_iff {q : Queue} {t : Ticket} : q.waiter? t = none ↔ t ∉ q.tickets := by
  simp [waiter?, tickets, line]

theorem workOf?_eq_none_iff {q : Queue} {t : Ticket} : q.workOf? t = none ↔ t ∉ q.tickets := by
  rw [← waiter?_eq_none_iff, workOf?, Option.map_eq_none_iff]

/-- With distinct tickets there is one entry for each. -/
theorem perm_cons_filter {entries : List (Ticket × Envelope)} {t : Ticket}
    {found : Ticket × Envelope} (distinct : (entries.map Prod.fst).Nodup)
    (first : entries.find? (·.1 = t) = some found) :
    entries.Perm (found :: entries.filter (·.1 ≠ t)) := by
  induction entries with
  | nil => cases first
  | cons entry rest ih =>
      rw [List.map_cons, List.nodup_cons] at distinct
      by_cases here : entry.1 = t
      · have others : rest.filter (·.1 ≠ t) = rest := by
          refine List.filter_eq_self.mpr ?_
          intro other member
          have elsewhere : other.1 ≠ t := fun same =>
            distinct.1 (List.mem_map.mpr ⟨other, member, same.trans here.symm⟩)
          simpa using elsewhere
        rw [List.find?_cons_of_pos (by simpa using here), Option.some.injEq] at first
        rw [List.filter_cons_of_neg (by simpa using here), others, first]
      · rw [List.find?_cons_of_neg (by simpa using here)] at first
        rw [List.filter_cons_of_pos (by simpa using here)]
        exact ((ih distinct.2 first).cons entry).trans (.swap ..)

/-- Whoever leaves a line of distinct tickets leaves the others in it. -/
theorem works_perm_of_waiter? {q : Queue} {t : Ticket} {w : Waiter} (distinct : q.tickets.Nodup)
    (found : q.waiter? t = some w) :
    q.works.Perm (w.work :: (q.line.filter (·.1 ≠ t)).map Prod.snd) := by
  have first : q.line.find? (·.1 = t) = some (w.ticket, w.work) := by
    rw [line, List.find?_map]
    exact congrArg (Option.map fun w => (w.ticket, w.work)) found
  exact (perm_cons_filter distinct first).map Prod.snd

/-- A queue that is built has room, and all of it is free. -/
theorem eq_of_build {capacity : Option Nat} {q : Queue} (built : build capacity = .ok q) :
    capacity ≠ some 0 ∧ q = { capacity := capacity, free := capacity.getD 0 } := by
  cases capacity with
  | none =>
      cases built
      exact ⟨by simp, rfl⟩
  | some n =>
      rw [build] at built
      split at built
      · cases built
      · next positive =>
          split at built
          · cases built
          · cases built
            exact ⟨by simpa using positive, rfl⟩

theorem fresh_of_build {capacity : Option Nat} {q : Queue} (built : build capacity = .ok q) :
    q.items = [] ∧ q.waiting = [] := by
  obtain ⟨-, rfl⟩ := eq_of_build built
  exact ⟨rfl, rfl⟩

/-! ### Contents -/

@[simp] theorem items_leaveLine (q : Queue) (t : Ticket) : (q.leaveLine t).items = q.items := rfl

theorem items_push (q : Queue) (t : Ticket) (work : Envelope) (interrupted : Bool) :
    (q.push t work interrupted).2.1.items =
      q.items ++ (q.push t work interrupted).1.landed work := by
  rw [push]
  split
  · rfl
  · rfl
  · cases interrupted <;> simp [Pushed.landed]

theorem items_pollPush (q : Queue) (w : Waiter) (interrupted : Bool) :
    (q.pollPush w interrupted).2.items =
      q.items ++ (q.pollPush w interrupted).1.landed w.work := by
  rw [pollPush]
  split
  · simp [Pushed.landed]
  · split <;> simp [Pushed.landed]

theorem items_dropPush (q : Queue) (w : Waiter) : (q.dropPush w).1.items = q.items :=
  items_withdraw q w

theorem items_pollPull (q : Queue) (t : Ticket) :
    q.items = (q.pollPull t).1.toList ++ (q.pollPull t).2.items := by
  rw [pollPull]
  split
  · split
    · next h => simpa using items_of_take h
    · rfl
  · rfl

theorem items_pull (q : Queue) (t : Ticket) :
    q.items = (q.pull t).1.toList ++ (q.pull t).2.items :=
  items_pollPull { q with pulls := q.pulls ++ [t] } t

theorem items_tryPull (q : Queue) :
    q.items = q.tryPull.1.toList ++ q.tryPull.2.items := by
  rw [tryPull]
  split
  · next h => simpa using items_of_take h
  · rfl

theorem items_foldl_dropPull (q : Queue) (ts : List Ticket) :
    (ts.foldl dropPull q).items = q.items := by
  induction ts generalizing q with
  | nil => rfl
  | cons t ts ih => exact ih (q.dropPull t)

/-! ### The line -/

/-- Reserving a slot moves nobody in the line. -/
theorem map_grantFirst {ws granted : List Waiter} (h : grantFirst ws = some granted) :
    granted.map (fun w => (w.ticket, w.work)) = ws.map fun w => (w.ticket, w.work) := by
  induction ws generalizing granted with
  | nil => cases h
  | cons w ws ih =>
      rw [grantFirst] at h
      split at h
      · obtain ⟨rest, hrest, rfl⟩ := Option.map_eq_some_iff.mp h
        simp [ih hrest]
      · cases h
        rfl

@[simp] theorem line_giveSlot (q : Queue) : q.giveSlot.line = q.line := by
  rw [giveSlot]
  split
  · next h => exact map_grantFirst h
  · rfl

@[simp] theorem line_append (q : Queue) (work : Envelope) : (q.append work).line = q.line := rfl

@[simp] theorem line_leaveLine (q : Queue) (t : Ticket) :
    (q.leaveLine t).line = q.line.filter (·.1 ≠ t) := by
  simp [leaveLine, line, List.filter_map, Function.comp_def]

@[simp] theorem line_withdraw (q : Queue) (w : Waiter) :
    (q.withdraw w).line = q.line.filter (·.1 ≠ w.ticket) := by
  rw [withdraw]
  split <;> simp

theorem line_push (q : Queue) (t : Ticket) (work : Envelope) (interrupted : Bool) :
    (q.push t work interrupted).2.1.line =
      if (q.push t work interrupted).1 = .waiting then q.line ++ [(t, work)] else q.line := by
  rw [push]
  split
  · rfl
  · rfl
  · cases interrupted <;> simp [line]

theorem line_pollPush (q : Queue) (w : Waiter) (interrupted : Bool) :
    (q.pollPush w interrupted).2.line =
      if (q.pollPush w interrupted).1 = .waiting then q.line
      else q.line.filter (·.1 ≠ w.ticket) := by
  rw [pollPush]
  split
  · simp
  · split <;> simp

@[simp] theorem line_dropPush (q : Queue) (w : Waiter) :
    (q.dropPush w).1.line = q.line.filter (·.1 ≠ w.ticket) :=
  line_withdraw q w

theorem line_of_take {q r : Queue} {work : Envelope} (h : q.take = some (work, r)) :
    r.line = q.line := by
  rw [take] at h
  split at h
  · cases h
  · obtain ⟨-, rfl⟩ := Prod.mk.inj (Option.some.inj h)
    split
    · exact line_giveSlot _
    · rfl

@[simp] theorem line_dropPull (q : Queue) (t : Ticket) : (q.dropPull t).line = q.line := rfl

@[simp] theorem line_pollPull (q : Queue) (t : Ticket) : (q.pollPull t).2.line = q.line := by
  rw [pollPull]
  split
  · split
    · next h => simpa using line_of_take h
    · rfl
  · rfl

@[simp] theorem line_pull (q : Queue) (t : Ticket) : (q.pull t).2.line = q.line :=
  line_pollPull { q with pulls := q.pulls ++ [t] } t

@[simp] theorem line_tryPull (q : Queue) : q.tryPull.2.line = q.line := by
  rw [tryPull]
  split
  · next h => exact line_of_take h
  · rfl

theorem line_foldl_dropPull (q : Queue) (ts : List Ticket) :
    (ts.foldl dropPull q).line = q.line := by
  induction ts generalizing q with
  | nil => rfl
  | cons t ts ih => exact ih (q.dropPull t)

/-! ### Look-ups -/

theorem workOf?_of_line {q r : Queue} (same : r.line = q.line) (t : Ticket) :
    r.workOf? t = q.workOf? t := by
  rw [workOf?_eq_find?, workOf?_eq_find?, same]

/-- Whoever leaves the line leaves the others in it. -/
theorem workOf?_of_line_filter {q r : Queue} {t u : Ticket}
    (left : r.line = q.line.filter (·.1 ≠ u)) :
    r.workOf? t = if t = u then none else q.workOf? t := by
  rw [workOf?_eq_find?, workOf?_eq_find?, left, List.find?_filter]
  by_cases same : t = u
  · simp [same]
  · have others (entry : Ticket × Envelope) :
        (decide (entry.1 ≠ u) = true ∧ decide (entry.1 = t) = true) ↔ entry.1 = t := by
      by_cases here : entry.1 = t <;> simp [here, same]
    simp only [others, if_neg same]

/-- Whoever joins the line joins it at the end. -/
theorem workOf?_of_line_append {q r : Queue} {t u : Ticket} {work : Envelope}
    (joined : r.line = q.line ++ [(u, work)]) :
    r.workOf? t = (q.workOf? t).or (if t = u then some work else none) := by
  rw [workOf?_eq_find?, workOf?_eq_find?, joined, List.find?_append]
  by_cases same : t = u
  · cases q.line.find? (·.1 = t) <;> simp [same]
  · cases q.line.find? (·.1 = t) <;> simp [same, Ne.symm same]

/-! ### Outcomes of pushes -/

/-- A push is interrupted or has to wait only where it finds no free slot. -/
theorem full_of_push {q : Queue} {t : Ticket} {work : Envelope} {interrupted : Bool}
    (h : (q.push t work interrupted).1 ≠ .accepted) : q.capacity.isSome ∧ q.free = 0 := by
  rw [push] at h
  split at h
  · exact absurd rfl h
  · exact absurd rfl h
  · next hcapacity hfree => exact ⟨by simp [hcapacity], hfree⟩

theorem interrupted_of_push {q : Queue} {t : Ticket} {work : Envelope} {interrupted : Bool}
    (h : (q.push t work interrupted).1 = .interrupted) : interrupted = true := by
  rw [push] at h
  split at h
  · cases h
  · cases h
  · cases interrupted
    · cases h
    · rfl

theorem push_of_interrupted {q : Queue} {t : Ticket} {work : Envelope} {interrupted : Bool}
    (h : (q.push t work interrupted).1 = .interrupted) :
    (q.push t work interrupted).2.1 = q := by
  rw [push] at h ⊢
  split at h
  · cases h
  · cases h
  · cases interrupted
    · cases h
    · rfl

theorem interrupted_of_pollPush {q : Queue} {w : Waiter} {interrupted : Bool}
    (h : (q.pollPush w interrupted).1 = .interrupted) : interrupted = true := by
  rw [pollPush] at h
  split at h
  · assumption
  · split at h <;> cases h

/-- A push that has been interrupted does not go on waiting. -/
theorem push_interrupted_ne_waiting (q : Queue) (t : Ticket) (work : Envelope) :
    (q.push t work true).1 ≠ .waiting := by
  rw [push]
  split <;> simp

theorem pollPush_interrupted (q : Queue) (w : Waiter) : (q.pollPush w true).1 = .interrupted :=
  rfl

/-- Only a push that finds no free slot says that the queue is full. -/
theorem logs_push (q : Queue) (t : Ticket) (work : Envelope) (interrupted : Bool) :
    (q.push t work interrupted).2.2 =
      if (q.push t work interrupted).1 = .accepted then [] else [.queueFull] := by
  rw [push]
  split
  · rfl
  · rfl
  · cases interrupted <;> rfl

end Queue

end ReviewHub
